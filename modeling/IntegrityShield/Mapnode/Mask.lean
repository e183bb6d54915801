/-
# Removing and extracting parts of a tree

`shield/pkg/util/mapnode/node.go`: `GetChild`, `GetNode`, `KeyExists`,
`generateKeyList`, `validateKeyList`, `recursiveMask`, `Mask`, `Extract`.

`validateKeyList` writes the parsed keys back into the slice it is given, so
`mask` and `extract` return that slice beside their node and the callers go on
with it.  `generateKeyList` counts indices up until a place does not exist; a
place the CSV reader cannot parse "exists" for every index, and then the loop
does not end.  It is run for as many rounds as there are nodes to count
through, and one more for each index; a loop still going then is one that
never stops.
-/

import IntegrityShield.Base.Fault
import IntegrityShield.Mapnode.Ravel

namespace IntegrityShield
namespace Mapnode

mutual

/-- The number of nodes of a tree. -/
def Node.nodes : Node → ℕ
  | .null => 1
  | .value _ => 1
  | .map children => 1 + fieldNodes children
  | .slice children => 1 + elemNodes children

def fieldNodes : List (String × Node) → ℕ
  | [] => 0
  | (_, v) :: rest => v.nodes + fieldNodes rest

def elemNodes : List Node → ℕ
  | [] => 0
  | v :: rest => v.nodes + elemNodes rest

end

/-- `Node.GetChild`. -/
def Node.getChild : Node → String → Option Node
  | .map children, key => children.lookup key
  | .slice children, key =>
      match Strings.atoi key with
      | (i, none) => if i < 0 then none else children[i.toNat]?
      | (_, some _) => none
  | _, _ => none

/-- `Node.GetNode`. -/
def Node.getNode (t : Node) (concatKey : String) : Option Node :=
  (splitConcatKey concatKey).foldlM Node.getChild t

/-- `Node.KeyExists`. -/
def Node.keyExists (t : Node) (concatKey : String) : Bool := (t.getNode concatKey).isSome

/-- `strings.Split(s, "[]")`. -/
def splitBrackets : List Char → List (List Char)
  | [] => [[]]
  | '[' :: ']' :: t => [] :: splitBrackets t
  | c :: t =>
      match splitBrackets t with
      | [] => [[c]]
      | p :: ps => (c :: p) :: ps

/-- The key and the check key of one round: the parts with the current indices
between them, the check key without the last part. -/
def roundKeys (parts : List String) (indexList : List ℕ) : String × String :=
  let body := String.join ((parts.zip indexList).map fun p => p.1 ++ "." ++ Strings.itoa p.2 ++ ".")
  (Strings.trimSuffix (body ++ parts.getLast?.getD "") ".", Strings.trimSuffix body ".")

/-- The rounds of `generateKeyList`.  `finished` marks the indices that have
run out; the last one that has not is counted up. -/
def keyRounds (t : Node) (parts : List String) : ℕ → List ℕ → List Bool → Go (List String)
  | 0, _, _ => .error .diverges
  | fuel + 1, indexList, finished =>
      let keys := roundKeys parts indexList
      let i := finished.length - 1 - finished.reverse.findIdx (· == false)
      if t.keyExists keys.2 then
        (keyRounds t parts fuel (indexList.modify i (· + 1)) finished).map (keys.1 :: ·)
      else
        let finished := finished.set i true
        if finished.head? = some true then .ok [] else keyRounds t parts fuel indexList finished

/-- `Node.generateKeyList`. -/
def Node.generateKeyList (t : Node) (concatKey : String) : Go (List String) :=
  if Strings.contains concatKey "[]" then
    let parts := (splitBrackets concatKey.toList).map fun p => Strings.trim (String.ofList p) "."
    let n := parts.length - 1
    keyRounds t parts (n * (t.nodes + 1) + 1) (List.replicate n 0) (List.replicate n false)
  else .ok []

/-- The keys that stand for one parsed key: its expansions, or itself. -/
def Node.concreteKeys (t : Node) (key : String) : Go (List String) :=
  (t.generateKeyList key).map fun l => if 0 < l.length then l else [key]

theorem concreteKeys_of_no_brackets (t : Node) {key : String}
    (h : Strings.contains key "[]" = false) : t.concreteKeys key = .ok [key] := by
  have hlist : t.generateKeyList key = .ok [] := by
    unfold Node.generateKeyList
    rw [h]
    rfl
  rw [Node.concreteKeys, hlist]
  rfl

/-- `Node.validateKeyList`: the existing keys, and the slice as it is left. -/
def Node.validateKeyList (t : Node) (keys : List String) : Go (List String × List String) := do
  let keys := keys.map parseConcatKey
  let newKeys ← keys.mapM t.concreteKeys
  return (newKeys.flatten, keys)

/-- Without an index wildcard among the keys, the parsed keys are the valid
ones. -/
theorem validateKeyList_of_no_brackets (t : Node) {keys : List String}
    (h : ∀ k ∈ keys, Strings.contains (parseConcatKey k) "[]" = false) :
    t.validateKeyList keys = .ok (keys.map parseConcatKey, keys.map parseConcatKey) := by
  have hmapM : ∀ l : List String, (∀ k ∈ l, Strings.contains k "[]" = false) →
      l.mapM t.concreteKeys = .ok (l.map fun k => [k]) := by
    intro l
    induction l with
    | nil => exact fun _ => rfl
    | cons k rest ih =>
        intro hl
        rw [List.mapM_cons, concreteKeys_of_no_brackets t (hl k (List.mem_cons_self ..)),
          ih fun k' hk' => hl k' (List.mem_cons_of_mem _ hk')]
        rfl
  have hflat : ∀ l : List String, (l.map fun k => [k]).flatten = l := by
    intro l
    induction l with
    | nil => rfl
    | cons k rest ih => rw [List.map_cons, List.flatten_cons, ih, List.singleton_append]
  have hkeys : ∀ k ∈ keys.map parseConcatKey, Strings.contains k "[]" = false := by
    intro k hk
    obtain ⟨k', hk', rfl⟩ := List.mem_map.1 hk
    exact h k' hk'
  simp only [Node.validateKeyList, hmapM _ hkeys, bind, Except.bind, pure, Except.pure, hflat]

variable [Regexp.UnicodeTables]

mutual

/-- `Node.recursiveMask`. -/
def Node.recursiveMask (maskKeys : List String) (currentPath : String) : Node → Node
  | .null => .null
  | .value v => .value v
  | .map children => .map (maskFields maskKeys currentPath children)
  | .slice children => .slice (maskElems maskKeys currentPath 0 children)

def maskFields (maskKeys : List String) (currentPath : String) :
    List (String × Node) → List (String × Node)
  | [] => []
  | (k, v) :: rest =>
      let currentKey := childKey currentPath k
      if (keyExistsInList maskKeys currentKey).1 then maskFields maskKeys currentPath rest
      else (k, v.recursiveMask maskKeys currentKey) :: maskFields maskKeys currentPath rest

def maskElems (maskKeys : List String) (currentPath : String) (i : ℕ) : List Node → List Node
  | [] => []
  | v :: rest =>
      let currentKey := childKey currentPath (Strings.itoa i)
      if (keyExistsInList maskKeys currentKey).1 then maskElems maskKeys currentPath (i + 1) rest
      else v.recursiveMask maskKeys currentKey :: maskElems maskKeys currentPath (i + 1) rest

end

/-- `Node.Mask`, and the slice of keys as it is left. -/
def Node.mask (t : Node) (keys : List String) : Go (Node × List String) := do
  let (validKeys, keys) ← t.validateKeyList keys
  return (t.recursiveMask validKeys "", keys)

theorem mask_of_validateKeyList {t : Node} {keys validKeys keys' : List String}
    (h : t.validateKeyList keys = .ok (validKeys, keys')) :
    t.mask keys = .ok (t.recursiveMask validKeys "", keys') := by
  rw [Node.mask, h]
  rfl

theorem mask_eq_recursiveMask (t : Node) {keys : List String}
    (h : ∀ k ∈ keys, Strings.contains (parseConcatKey k) "[]" = false) :
    t.mask keys =
      .ok (t.recursiveMask (keys.map parseConcatKey) "", keys.map parseConcatKey) :=
  mask_of_validateKeyList (validateKeyList_of_no_brackets t h)

/-- The parents of a dotted path, the path itself left out. -/
def parentKeys (k : String) : List String :=
  let keyParts := Strings.split k '.'
  (List.range (keyParts.length - 1)).map fun i => Strings.join (keyParts.take (i + 1)) "."

/-- The keys `Extract` masks because of one leaf: the leaf unless a filter is a
prefix of it, and its parents unless they lie on the way to a filter or below
one. -/
def extractMaskKeys (validFilterKeys : List String) (k : String) : List String :=
  (if validFilterKeys.any fun fk => Strings.hasPrefix k fk then [] else [k]) ++
    (parentKeys k).filter fun parentKey =>
      !validFilterKeys.any fun fk => Strings.hasPrefix fk parentKey || Strings.hasPrefix parentKey fk

/-- `Node.Extract`, and the slice of filters as it is left. -/
def Node.extract (n : Node) (filterKeys : List String) : Go (Node × List String) := do
  let (validFilterKeys, filterKeys) ← n.validateKeyList filterKeys
  let maskKeys := n.ravel.keys.flatMap (extractMaskKeys validFilterKeys)
  let (node, _) ← n.mask maskKeys
  return (node, filterKeys)

mutual

/-- The leaves that are left when every entry and element whose path satisfies
`dropped` is taken out.  `path` is the place in the tree, `place` the place
after the elements that are left have moved up. -/
def Node.keptLeavesFrom (dropped : String → Bool) (path place : String) :
    Node → List (String × Scalar)
  | .null => []
  | .value v => [(place, v)]
  | .map children => keptFieldLeaves dropped path place children
  | .slice children => keptElemLeaves dropped path place 0 0 children

def keptFieldLeaves (dropped : String → Bool) (path place : String) :
    List (String × Node) → List (String × Scalar)
  | [] => []
  | (k, v) :: rest =>
      (if dropped (childKey path k) then []
        else v.keptLeavesFrom dropped (childKey path k) (childKey place k)) ++
      keptFieldLeaves dropped path place rest

def keptElemLeaves (dropped : String → Bool) (path place : String) (i j : ℕ) :
    List Node → List (String × Scalar)
  | [] => []
  | v :: rest =>
      if dropped (childKey path (Strings.itoa i)) then
        keptElemLeaves dropped path place (i + 1) j rest
      else
        v.keptLeavesFrom dropped (childKey path (Strings.itoa i)) (childKey place (Strings.itoa j)) ++
          keptElemLeaves dropped path place (i + 1) (j + 1) rest

end

mutual

/-- Masking leaves the leaves that no key covers, the elements of each list
renumbered. -/
theorem leavesFrom_recursiveMask (keys : List String) (path place : String) :
    ∀ t : Node, (t.recursiveMask keys path).leavesFrom place =
      t.keptLeavesFrom (fun p => keys.any (isListed p)) path place
  | .null => rfl
  | .value _ => rfl
  | .map children => by
      rw [Node.recursiveMask, Node.leavesFrom, Node.keptLeavesFrom,
        fieldLeaves_maskFields keys path place children]
  | .slice children => by
      rw [Node.recursiveMask, Node.leavesFrom, Node.keptLeavesFrom,
        elemLeaves_maskElems keys path place 0 0 children]

theorem fieldLeaves_maskFields (keys : List String) (path place : String) :
    ∀ fs : List (String × Node), fieldLeaves place (maskFields keys path fs) =
      keptFieldLeaves (fun p => keys.any (isListed p)) path place fs
  | [] => rfl
  | (k, v) :: rest => by
      have hrest := fieldLeaves_maskFields keys path place rest
      rw [maskFields, keptFieldLeaves, keyExistsInList_fst]
      split
      · rw [hrest, List.nil_append]
      · rw [fieldLeaves, hrest,
          leavesFrom_recursiveMask keys (childKey path k) (childKey place k) v]

theorem elemLeaves_maskElems (keys : List String) (path place : String) :
    ∀ (i j : ℕ) (ns : List Node), elemLeaves place j (maskElems keys path i ns) =
      keptElemLeaves (fun p => keys.any (isListed p)) path place i j ns
  | _, _, [] => rfl
  | i, j, v :: rest => by
      rw [maskElems, keptElemLeaves, keyExistsInList_fst]
      split
      · exact elemLeaves_maskElems keys path place (i + 1) j rest
      · rw [elemLeaves, elemLeaves_maskElems keys path place (i + 1) (j + 1) rest,
          leavesFrom_recursiveMask keys (childKey path (Strings.itoa i))
            (childKey place (Strings.itoa j)) v]

end

/-- Masking a map gives a map. -/
theorem recursiveMask_map (keys : List String) (path : String) (children : List (String × Node)) :
    (Node.map children).recursiveMask keys path = .map (maskFields keys path children) := by
  rw [Node.recursiveMask]

end Mapnode
end IntegrityShield
