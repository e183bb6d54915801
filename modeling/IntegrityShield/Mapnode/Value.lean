/-
# JSON values and the nodes built from them

`shield/pkg/util/mapnode/node.go`: `NodeValue`, `Node`, `NewNode`,
`Node.Interface`, `Node.ToMap`.

A decoded JSON value is what `encoding/json` puts into an `interface{}`:
strings, booleans, `float64` numbers, `nil`, slices and maps.  A Go map has no
order, and `range` visits it in an arbitrary one, drawn anew at every loop.  A
map is modelled by the list of its entries in the order in which it happens to
be visited; a statement about every such list is a statement about every
order, and `Json.Same` says that two lists of entries are one map.

A number is kept as the shortest decimal that denotes it, which is how Go
prints it: a coefficient without trailing zeros and a power of ten.  Negative
zero is zero, as for Go's `==`.
-/

import IntegrityShield.Base.Strings
import Mathlib.Data.List.Sort

namespace IntegrityShield
namespace Mapnode

/-- A `float64` by its shortest decimal form `coeff * 10 ^ exp`. -/
structure Number where
  coeff : ℤ
  exp : ℤ
  canonical : (coeff = 0 ∧ exp = 0) ∨ coeff % 10 ≠ 0
deriving DecidableEq

/-- An integer below ten, as a number. -/
def Number.ofDigit (d : Fin 10) : Number :=
  ⟨d, 0, by revert d; decide⟩

/-- The digits after the point of the `%e` form. -/
def fraction : List Char → List Char
  | [] => []
  | ds => '.' :: ds

/-- `%v` of a `float64`: `%e` for exponents below `-4` or from `6` on, `%f`
otherwise, with as many digits as are needed. -/
def Number.format (n : Number) : String :=
  let ds := n.coeff.natAbs.repr.toList
  let point : ℤ := ds.length + n.exp
  let exponent := if n.coeff = 0 then 0 else point - 1
  let body : List Char :=
    if exponent < -4 ∨ 6 ≤ exponent then
      let e := exponent.natAbs.repr.toList
      ds.take 1 ++ fraction (ds.drop 1) ++ ['e', if exponent < 0 then '-' else '+'] ++
        (if e.length < 2 then '0' :: e else e)
    else if point ≤ 0 then '0' :: fraction (List.replicate (-point).toNat '0' ++ ds)
    else ds.take point.toNat ++ List.replicate n.exp.toNat '0' ++ fraction (ds.drop point.toNat)
  String.ofList (if n.coeff < 0 then '-' :: body else body)

/-- The value of a leaf: what a `NodeValue` may hold. -/
inductive Scalar where
  | str (s : String)
  | num (n : Number)
  | bool (b : Bool)
deriving DecidableEq

/-- `reflect.TypeOf`, as `%T` prints it. -/
def Scalar.goType : Scalar → String
  | .str _ => "string"
  | .num _ => "float64"
  | .bool _ => "bool"

/-- `%s` of the value: Go marks a verb that does not fit the type. -/
def Scalar.sprintS : Scalar → String
  | .str s => s
  | .num n => "%!s(float64=" ++ n.format ++ ")"
  | .bool b => "%!s(bool=" ++ toString b ++ ")"

/-- `fmt.Sprintf("(type: %T) %s", v, v)`. -/
def Scalar.tagged (v : Scalar) : Scalar := .str ("(type: " ++ v.goType ++ ") " ++ v.sprintS)

/-- A decoded JSON value. -/
inductive Json where
  | null
  | scalar (v : Scalar)
  | arr (elems : List Json)
  | obj (fields : List (String × Json))

/-- A decoded JSON object: `map[string]interface{}`. -/
abbrev JsonMap := List (String × Json)

/-- `Node`: a null, a value, or children. -/
inductive Node where
  | null
  | value (v : Scalar)
  | map (children : List (String × Node))
  | slice (children : List Node)

mutual

/-- `NewNode`. -/
def newNode : Json → Node
  | .null => .null
  | .scalar v => .value v
  | .arr elems => .slice (newNodes elems)
  | .obj fields => .map (newFields fields)

def newNodes : List Json → List Node
  | [] => []
  | j :: rest => newNode j :: newNodes rest

def newFields : List (String × Json) → List (String × Node)
  | [] => []
  | (k, j) :: rest => (k, newNode j) :: newFields rest

end

/-- `NewFromMap`; `NewNode` of a map is never nil. -/
def newFromMap (m : JsonMap) : Node := newNode (.obj m)

mutual

/-- `Node.Interface`. -/
def Node.interface : Node → Json
  | .null => .null
  | .value v => .scalar v
  | .map children => .obj (interfaceFields children)
  | .slice children => .arr (interfaces children)

def interfaces : List Node → List Json
  | [] => []
  | n :: rest => n.interface :: interfaces rest

def interfaceFields : List (String × Node) → List (String × Json)
  | [] => []
  | (k, n) :: rest => (k, n.interface) :: interfaceFields rest

end

/-- `Node.ToMap`: nil, hence empty, for a node that is no map. -/
def Node.toMap (n : Node) : JsonMap :=
  match n.interface with
  | .obj fields => fields
  | _ => []

mutual

/-- A value and its node carry the same data. -/
theorem newNode_interface : ∀ n : Node, newNode n.interface = n
  | .null => rfl
  | .value _ => rfl
  | .map children => by rw [Node.interface, newNode, newFields_interfaceFields children]
  | .slice children => by rw [Node.interface, newNode, newNodes_interfaces children]

theorem newNodes_interfaces : ∀ ns : List Node, newNodes (interfaces ns) = ns
  | [] => rfl
  | n :: rest => by rw [interfaces, newNodes, newNode_interface n, newNodes_interfaces rest]

theorem newFields_interfaceFields : ∀ fs : List (String × Node), newFields (interfaceFields fs) = fs
  | [] => rfl
  | (k, n) :: rest => by
      rw [interfaceFields, newFields, newNode_interface n, newFields_interfaceFields rest]

end

/-- **A map node survives the way through a plain map.** -/
theorem newFromMap_toMap (children : List (String × Node)) :
    newFromMap (Node.map children).toMap = .map children := by
  have h : (Node.map children).toMap = interfaceFields children := by
    rw [Node.toMap, Node.interface]
  rw [h, newFromMap, newNode, newFields_interfaceFields]

mutual

/-- The value with the fields of every object in the order of their names. -/
def Json.canon : Json → Json
  | .null => .null
  | .scalar v => .scalar v
  | .arr elems => .arr (canonList elems)
  | .obj fields => .obj ((canonFields fields).insertionSort fun a b => a.1 ≤ b.1)

def canonList : List Json → List Json
  | [] => []
  | j :: rest => j.canon :: canonList rest

def canonFields : List (String × Json) → List (String × Json)
  | [] => []
  | (k, j) :: rest => (k, j.canon) :: canonFields rest

end

/-- Two values are the same JSON value: they differ at most in the order in
which the entries of their objects are listed. -/
def Json.Same (a b : Json) : Prop := a.canon = b.canon

end Mapnode
end IntegrityShield
