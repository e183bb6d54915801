/-
# Flattening a tree

`Node.Ravel` and `Node.recursiveRavel` of `shield/pkg/util/mapnode/node.go`:
the map from dotted paths to the values of the leaves.

`Node.leaves` lists the leaves of a tree with their dotted paths, in the order
in which `recursiveRavel` writes them; the flattened map holds at each path
what was written there last (`lookup_ravel`).  Nulls, empty maps and empty
lists are no leaves, an index is written like a name, and a dot inside a name
is not told apart from one between names, so that several trees, and several
leaves of one tree, may share a path.
-/

import IntegrityShield.Base.FlatMap
import IntegrityShield.Mapnode.Key
import IntegrityShield.Mapnode.Value
import Mathlib.Data.List.Permutation

namespace IntegrityShield
namespace Mapnode

/-- `map[string]interface{}` of leaf values. -/
abbrev FlatMap := GoMap String Scalar

mutual

/-- `Node.recursiveRavel`. -/
def Node.recursiveRavel (currentPath : String) (m : FlatMap) : Node → FlatMap
  | .null => m
  | .value v => m.insert currentPath v
  | .map children => ravelFields currentPath m children
  | .slice children => ravelElems currentPath 0 m children

def ravelFields (currentPath : String) (m : FlatMap) : List (String × Node) → FlatMap
  | [] => m
  | (k, v) :: rest =>
      ravelFields currentPath (v.recursiveRavel (childKey currentPath k) m) rest

def ravelElems (currentPath : String) (i : ℕ) (m : FlatMap) : List Node → FlatMap
  | [] => m
  | v :: rest =>
      ravelElems currentPath (i + 1)
        (v.recursiveRavel (childKey currentPath (Strings.itoa i)) m) rest

end

/-- `Node.Ravel`. -/
def Node.ravel (t : Node) : FlatMap := t.recursiveRavel "" ∅

mutual

/-- The leaves below a path: the dotted path and the value of each. -/
def Node.leavesFrom (path : String) : Node → List (String × Scalar)
  | .null => []
  | .value v => [(path, v)]
  | .map children => fieldLeaves path children
  | .slice children => elemLeaves path 0 children

def fieldLeaves (path : String) : List (String × Node) → List (String × Scalar)
  | [] => []
  | (k, v) :: rest => v.leavesFrom (childKey path k) ++ fieldLeaves path rest

def elemLeaves (path : String) (i : ℕ) : List Node → List (String × Scalar)
  | [] => []
  | v :: rest => v.leavesFrom (childKey path (Strings.itoa i)) ++ elemLeaves path (i + 1) rest

end

/-- The leaves of a tree. -/
def Node.leaves (t : Node) : List (String × Scalar) := t.leavesFrom ""

mutual

theorem recursiveRavel_eq_writes (path : String) (m : FlatMap) :
    ∀ t : Node, t.recursiveRavel path m = m.writes (t.leavesFrom path)
  | .null => rfl
  | .value _ => rfl
  | .map children => by
      rw [Node.recursiveRavel, Node.leavesFrom, ravelFields_eq_writes path m children]
  | .slice children => by
      rw [Node.recursiveRavel, Node.leavesFrom, ravelElems_eq_writes path 0 m children]

theorem ravelFields_eq_writes (path : String) (m : FlatMap) :
    ∀ fs : List (String × Node), ravelFields path m fs = m.writes (fieldLeaves path fs)
  | [] => rfl
  | (k, v) :: rest => by
      rw [ravelFields, fieldLeaves, GoMap.writes_append,
        recursiveRavel_eq_writes (childKey path k) m v, ravelFields_eq_writes path _ rest]

theorem ravelElems_eq_writes (path : String) (i : ℕ) (m : FlatMap) :
    ∀ ns : List Node, ravelElems path i m ns = m.writes (elemLeaves path i ns)
  | [] => rfl
  | v :: rest => by
      rw [ravelElems, elemLeaves, GoMap.writes_append,
        recursiveRavel_eq_writes (childKey path (Strings.itoa i)) m v,
        ravelElems_eq_writes path (i + 1) _ rest]

end

/-- The value a tree shows at a dotted path: that of its last leaf there. -/
def Node.valueAt (t : Node) (path : String) : Option Scalar := GoMap.lastAt t.leaves path

/-- **The flattened map holds the last leaf at each path.** -/
theorem lookup_ravel (t : Node) (path : String) : t.ravel.lookup path = t.valueAt path := by
  rw [Node.ravel, recursiveRavel_eq_writes, GoMap.lookup_writes]
  rfl

theorem deepEqual_ravel_iff (t₁ t₂ : Node) :
    GoMap.deepEqual t₁.ravel t₂.ravel = true ↔ ∀ path, t₁.valueAt path = t₂.valueAt path := by
  simp only [GoMap.deepEqual_iff, lookup_ravel]

mutual

/-- The trees that arise by permuting the elements of every list. -/
def Node.reorderings : Node → List Node
  | .null => [.null]
  | .value v => [.value v]
  | .map children => (reorderFields children).map .map
  | .slice children => (reorderElems children).flatMap fun cs => cs.permutations'.map .slice

def reorderFields : List (String × Node) → List (List (String × Node))
  | [] => [[]]
  | (k, v) :: rest => v.reorderings.flatMap fun v' => (reorderFields rest).map ((k, v') :: ·)

def reorderElems : List Node → List (List Node)
  | [] => [[]]
  | v :: rest => v.reorderings.flatMap fun v' => (reorderElems rest).map (v' :: ·)

end

mutual

theorem mem_reorderings_self : ∀ t : Node, t ∈ t.reorderings
  | .null => List.mem_singleton.2 rfl
  | .value _ => List.mem_singleton.2 rfl
  | .map children => by
      rw [Node.reorderings]
      exact List.mem_map_of_mem (mem_reorderFields_self children)
  | .slice children => by
      rw [Node.reorderings, List.mem_flatMap]
      refine ⟨children, mem_reorderElems_self children, List.mem_map_of_mem ?_⟩
      exact List.mem_permutations'.2 (List.Perm.refl children)

theorem mem_reorderFields_self : ∀ fs : List (String × Node), fs ∈ reorderFields fs
  | [] => List.mem_singleton.2 rfl
  | (_, v) :: rest => by
      rw [reorderFields, List.mem_flatMap]
      exact ⟨v, mem_reorderings_self v, List.mem_map_of_mem (mem_reorderFields_self rest)⟩

theorem mem_reorderElems_self : ∀ ns : List Node, ns ∈ reorderElems ns
  | [] => List.mem_singleton.2 rfl
  | v :: rest => by
      rw [reorderElems, List.mem_flatMap]
      exact ⟨v, mem_reorderings_self v, List.mem_map_of_mem (mem_reorderElems_self rest)⟩

end

end Mapnode
end IntegrityShield
