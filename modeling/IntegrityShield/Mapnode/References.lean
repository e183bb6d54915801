/-
# Trees in memory

A `*Node` of `shield/pkg/util/mapnode/node.go` is a pointer, its children are pointers again, and
trees may share nodes: `recursiveMask` allocates a new node for every map and list it walks
through and hands on the pointers of the values it keeps.  Here `NewNode` and `Mask` run on a
memory of cells.  `Memory.Holds` says which tree a pointer stands for.  Every step allocates and
none writes to a cell there is, so memory only grows (`newNodeAt_spec`, `recursiveMaskAt_spec`),
and what a pointer stood for before, it stands for after (`Memory.Holds.mono`).  The result of
`Mask` in memory stands for the masked tree (`maskAt_spec`).
-/

import IntegrityShield.Mapnode.Mask

namespace IntegrityShield
namespace Mapnode

/-- A `*Node`. -/
abbrev Ref := ℕ

/-- What a `Node` has in its two fields. -/
inductive Cell where
  | null
  | value (v : Scalar)
  | map (children : List (String × Ref))
  | slice (children : List Ref)
deriving DecidableEq

/-- The nodes that have been allocated. -/
abbrev Memory := List Cell

namespace Memory

/-- `&Node{..}`: a new cell. -/
def alloc (mem : Memory) (cell : Cell) : Memory × Ref := (mem ++ [cell], mem.length)

mutual

/-- A pointer stands for a tree. -/
inductive Holds (mem : Memory) : Ref → Node → Prop
  | null {n : Ref} (read : mem[n]? = some .null) : Holds mem n .null
  | value {n : Ref} {v : Scalar} (read : mem[n]? = some (.value v)) : Holds mem n (.value v)
  | map {n : Ref} {refs : List (String × Ref)} {children : List (String × Node)}
      (read : mem[n]? = some (.map refs)) (fields : HoldsFields mem refs children) :
      Holds mem n (.map children)
  | slice {n : Ref} {refs : List Ref} {children : List Node}
      (read : mem[n]? = some (.slice refs)) (elems : HoldsElems mem refs children) :
      Holds mem n (.slice children)

inductive HoldsFields (mem : Memory) : List (String × Ref) → List (String × Node) → Prop
  | nil : HoldsFields mem [] []
  | cons {n : Ref} {t : Node} {refs : List (String × Ref)} {children : List (String × Node)}
      (k : String) (first : Holds mem n t) (rest : HoldsFields mem refs children) :
      HoldsFields mem ((k, n) :: refs) ((k, t) :: children)

inductive HoldsElems (mem : Memory) : List Ref → List Node → Prop
  | nil : HoldsElems mem [] []
  | cons {n : Ref} {t : Node} {refs : List Ref} {children : List Node} (first : Holds mem n t)
      (rest : HoldsElems mem refs children) : HoldsElems mem (n :: refs) (t :: children)

end

section Growth

variable {mem mem' : Memory}

theorem prefix_alloc (mem : Memory) (cell : Cell) : mem <+: (mem.alloc cell).1 :=
  List.prefix_append mem [cell]

theorem read_alloc (mem : Memory) (cell : Cell) :
    (mem.alloc cell).1[(mem.alloc cell).2]? = some cell :=
  List.getElem?_concat_length

theorem read_of_extends (h : mem <+: mem') {n : Ref} {cell : Cell} (hread : mem[n]? = some cell) :
    mem'[n]? = some cell := by
  obtain ⟨more, rfl⟩ := h
  obtain ⟨hlt, _⟩ := List.getElem?_eq_some_iff.1 hread
  rw [List.getElem?_append_left hlt, hread]

mutual

/-- **A larger memory holds what the smaller one held.** -/
theorem Holds.mono (h : mem <+: mem') : ∀ {n : Ref} {t : Node}, mem.Holds n t → mem'.Holds n t
  | _, .null, .null hread => .null (read_of_extends h hread)
  | _, .value _, .value hread => .value (read_of_extends h hread)
  | _, .map _, .map hread hfields => .map (read_of_extends h hread) (hfields.mono h)
  | _, .slice _, .slice hread helems => .slice (read_of_extends h hread) (helems.mono h)

theorem HoldsFields.mono (h : mem <+: mem') : ∀ {refs : List (String × Ref)}
    {children : List (String × Node)}, mem.HoldsFields refs children →
      mem'.HoldsFields refs children
  | _, [], .nil => .nil
  | _, (_, _) :: _, .cons k hfirst hrest => .cons k (hfirst.mono h) (hrest.mono h)

theorem HoldsElems.mono (h : mem <+: mem') : ∀ {refs : List Ref} {children : List Node},
    mem.HoldsElems refs children → mem'.HoldsElems refs children
  | _, [], .nil => .nil
  | _, _ :: _, .cons hfirst hrest => .cons (hfirst.mono h) (hrest.mono h)

end

end Growth

end Memory

/-! ## Building a tree -/

mutual

/-- `NewNode`. -/
def newNodeAt : Json → Memory → Memory × Ref
  | .null, mem => mem.alloc .null
  | .scalar v, mem => mem.alloc (.value v)
  | .arr elems, mem =>
      let (mem, children) := newNodesAt elems mem
      mem.alloc (.slice children)
  | .obj fields, mem =>
      let (mem, children) := newFieldsAt fields mem
      mem.alloc (.map children)

def newNodesAt : List Json → Memory → Memory × List Ref
  | [], mem => (mem, [])
  | j :: rest, mem =>
      let (mem, n) := newNodeAt j mem
      let (mem, refs) := newNodesAt rest mem
      (mem, n :: refs)

def newFieldsAt : List (String × Json) → Memory → Memory × List (String × Ref)
  | [], mem => (mem, [])
  | (k, j) :: rest, mem =>
      let (mem, n) := newNodeAt j mem
      let (mem, refs) := newFieldsAt rest mem
      (mem, (k, n) :: refs)

end

/-- `NewFromMap`. -/
def newFromMapAt (m : JsonMap) (mem : Memory) : Memory × Ref := newNodeAt (.obj m) mem

open Memory

mutual

/-- Memory grows by a tree for the value. -/
theorem newNodeAt_spec : ∀ (j : Json) (mem : Memory),
    mem <+: (newNodeAt j mem).1 ∧ (newNodeAt j mem).1.Holds (newNodeAt j mem).2 (newNode j)
  | .null, mem => by
      rw [newNodeAt, newNode]
      exact ⟨prefix_alloc mem _, .null (read_alloc mem _)⟩
  | .scalar v, mem => by
      rw [newNodeAt, newNode]
      exact ⟨prefix_alloc mem _, .value (read_alloc mem _)⟩
  | .arr elems, mem => by
      obtain ⟨hgrows, hholds⟩ := newNodesAt_spec elems mem
      have halloc := prefix_alloc (newNodesAt elems mem).1 (.slice (newNodesAt elems mem).2)
      rw [newNodeAt, newNode]
      exact ⟨hgrows.trans halloc, .slice (read_alloc _ _) (hholds.mono halloc)⟩
  | .obj fields, mem => by
      obtain ⟨hgrows, hholds⟩ := newFieldsAt_spec fields mem
      have halloc := prefix_alloc (newFieldsAt fields mem).1 (.map (newFieldsAt fields mem).2)
      rw [newNodeAt, newNode]
      exact ⟨hgrows.trans halloc, .map (read_alloc _ _) (hholds.mono halloc)⟩

theorem newNodesAt_spec : ∀ (elems : List Json) (mem : Memory),
    mem <+: (newNodesAt elems mem).1 ∧
      (newNodesAt elems mem).1.HoldsElems (newNodesAt elems mem).2 (newNodes elems)
  | [], mem => by
      rw [newNodesAt, newNodes]
      exact ⟨List.prefix_refl mem, .nil⟩
  | j :: rest, mem => by
      obtain ⟨hgrows, hholds⟩ := newNodeAt_spec j mem
      obtain ⟨hgrows', hrest⟩ := newNodesAt_spec rest (newNodeAt j mem).1
      rw [newNodesAt, newNodes]
      exact ⟨hgrows.trans hgrows', .cons (hholds.mono hgrows') hrest⟩

theorem newFieldsAt_spec : ∀ (fields : List (String × Json)) (mem : Memory),
    mem <+: (newFieldsAt fields mem).1 ∧
      (newFieldsAt fields mem).1.HoldsFields (newFieldsAt fields mem).2 (newFields fields)
  | [], mem => by
      rw [newFieldsAt, newFields]
      exact ⟨List.prefix_refl mem, .nil⟩
  | (k, j) :: rest, mem => by
      obtain ⟨hgrows, hholds⟩ := newNodeAt_spec j mem
      obtain ⟨hgrows', hrest⟩ := newFieldsAt_spec rest (newNodeAt j mem).1
      rw [newFieldsAt, newFields]
      exact ⟨hgrows.trans hgrows', .cons k (hholds.mono hgrows') hrest⟩

end

/-! ## Reading a tree -/

/-- What a function that only reads sees of a pointer.  Following pointers in a circle never
ends. -/
def treeAt (mem : Memory) : ℕ → Ref → Go Node
  | 0, _ => .error .diverges
  | fuel + 1, n =>
      match mem[n]? with
      | none => .error .nilDeref
      | some .null => return .null
      | some (.value v) => return .value v
      | some (.map refs) => do
          let children ← refs.mapM fun f => return (f.1, ← treeAt mem fuel f.2)
          return .map children
      | some (.slice refs) => do
          let children ← refs.mapM (treeAt mem fuel)
          return .slice children

/-- `Node.ToMap`. -/
def toMapAt (fuel : ℕ) (mem : Memory) (n : Ref) : Go JsonMap := do
  let t ← treeAt mem fuel n
  return t.toMap

theorem Node.nodes_pos (t : Node) : 0 < t.nodes := by
  cases t with
  | null => exact Nat.zero_lt_one
  | value v => exact Nat.zero_lt_one
  | map children => exact Nat.lt_of_lt_of_le Nat.zero_lt_one (Nat.le_add_right 1 _)
  | slice children => exact Nat.lt_of_lt_of_le Nat.zero_lt_one (Nat.le_add_right 1 _)

mutual

/-- Reading gives the tree that the pointer stands for. -/
theorem treeAt_of_holds {mem : Memory} : ∀ {t : Node} {n : Ref} {fuel : ℕ}, mem.Holds n t →
    t.nodes ≤ fuel → treeAt mem fuel n = .ok t
  | t, _, 0, _, hfuel => absurd hfuel (Nat.not_le_of_lt t.nodes_pos)
  | .null, _, _ + 1, .null hread, _ => by
      simp only [treeAt, hread]
      rfl
  | .value _, _, _ + 1, .value hread, _ => by
      simp only [treeAt, hread]
      rfl
  | .map children, _, fuel + 1, .map hread hfields, hfuel => by
      rw [Node.nodes] at hfuel
      simp only [treeAt, hread,
        fieldsAt_of_holds hfields (show fieldNodes children ≤ fuel by omega)]
      rfl
  | .slice children, _, fuel + 1, .slice hread helems, hfuel => by
      rw [Node.nodes] at hfuel
      simp only [treeAt, hread, elemsAt_of_holds helems (show elemNodes children ≤ fuel by omega)]
      rfl

theorem fieldsAt_of_holds {mem : Memory} : ∀ {children : List (String × Node)}
    {refs : List (String × Ref)} {fuel : ℕ}, mem.HoldsFields refs children →
      fieldNodes children ≤ fuel →
        (refs.mapM fun f => return (f.1, ← treeAt mem fuel f.2)) = Except.ok children
  | [], _, _, .nil, _ => rfl
  | (k, t) :: rest, _, fuel, .cons _ hfirst hrest, hfuel => by
      rw [fieldNodes] at hfuel
      rw [List.mapM_cons, treeAt_of_holds hfirst (by omega), fieldsAt_of_holds hrest (by omega)]
      rfl

theorem elemsAt_of_holds {mem : Memory} : ∀ {children : List Node} {refs : List Ref} {fuel : ℕ},
    mem.HoldsElems refs children → elemNodes children ≤ fuel →
      refs.mapM (treeAt mem fuel) = .ok children
  | [], _, _, .nil, _ => rfl
  | t :: rest, _, fuel, .cons hfirst hrest, hfuel => by
      rw [elemNodes] at hfuel
      rw [List.mapM_cons, treeAt_of_holds hfirst (by omega), elemsAt_of_holds hrest (by omega)]
      rfl

end

/-! ## Masking a tree -/

section Mask

variable [Regexp.UnicodeTables]

/-- The loop of `recursiveMask` over a map; `mask` is the recursive call. -/
def maskFieldsAt (mask : Memory → String → Ref → Go (Memory × Ref)) (maskKeys : List String)
    (currentPath : String) : List (String × Ref) → Memory → Go (Memory × List (String × Ref))
  | [], mem => return (mem, [])
  | (k, v) :: rest, mem =>
      let currentKey := childKey currentPath k
      if (keyExistsInList maskKeys currentKey).1 then
        maskFieldsAt mask maskKeys currentPath rest mem
      else do
        let (mem, mn) ← mask mem currentKey v
        let (mem, newChildren) ← maskFieldsAt mask maskKeys currentPath rest mem
        return (mem, (k, mn) :: newChildren)

/-- The loop over a list. -/
def maskElemsAt (mask : Memory → String → Ref → Go (Memory × Ref)) (maskKeys : List String)
    (currentPath : String) : ℕ → List Ref → Memory → Go (Memory × List Ref)
  | _, [], mem => return (mem, [])
  | i, v :: rest, mem =>
      let currentKey := childKey currentPath (Strings.itoa i)
      if (keyExistsInList maskKeys currentKey).1 then
        maskElemsAt mask maskKeys currentPath (i + 1) rest mem
      else do
        let (mem, mn) ← mask mem currentKey v
        let (mem, newChildren) ← maskElemsAt mask maskKeys currentPath (i + 1) rest mem
        return (mem, mn :: newChildren)

/-- `Node.recursiveMask`: a value is returned as it is, a map or a list is rebuilt. -/
def recursiveMaskAt (maskKeys : List String) :
    ℕ → Memory → String → Ref → Go (Memory × Ref)
  | 0, _, _, _ => .error .diverges
  | fuel + 1, mem, currentPath, n =>
      match mem[n]? with
      | none => .error .nilDeref
      | some .null => return (mem, n)
      | some (.value _) => return (mem, n)
      | some (.map children) => do
          let (mem, newChildren) ←
            maskFieldsAt (recursiveMaskAt maskKeys fuel) maskKeys currentPath children mem
          return mem.alloc (.map newChildren)
      | some (.slice children) => do
          let (mem, newChildren) ←
            maskElemsAt (recursiveMaskAt maskKeys fuel) maskKeys currentPath 0 children mem
          return mem.alloc (.slice newChildren)

/-- `Node.Mask`, and the slice of keys as it is left; `validateKeyList` only reads the tree. -/
def maskAt (fuel : ℕ) (mem : Memory) (n : Ref) (keys : List String) :
    Go (Memory × Ref × List String) := do
  let t ← treeAt mem fuel n
  let (validKeys, keys) ← t.validateKeyList keys
  let (mem, masked) ← recursiveMaskAt validKeys fuel mem "" n
  return (mem, masked, keys)

mutual

/-- Memory grows by the masked tree. -/
theorem recursiveMaskAt_spec (keys : List String) : ∀ {t : Node} {n : Ref} {mem : Memory}
    {fuel : ℕ} (path : String), mem.Holds n t → t.nodes ≤ fuel →
      ∃ mem' n', recursiveMaskAt keys fuel mem path n = .ok (mem', n') ∧ mem <+: mem' ∧
        mem'.Holds n' (t.recursiveMask keys path)
  | t, _, _, 0, _, _, hfuel => absurd hfuel (Nat.not_le_of_lt t.nodes_pos)
  | .null, n, mem, _ + 1, _, .null hread, _ => by
      refine ⟨mem, n, ?_, List.prefix_refl mem, .null hread⟩
      simp only [recursiveMaskAt, hread]
      rfl
  | .value _, n, mem, _ + 1, _, .value hread, _ => by
      refine ⟨mem, n, ?_, List.prefix_refl mem, .value hread⟩
      simp only [recursiveMaskAt, hread]
      rfl
  | .map children, _, mem, fuel + 1, path, .map hread hfields, hfuel => by
      rw [Node.nodes] at hfuel
      obtain ⟨mem', refs, hmask, hgrows, hholds⟩ :=
        maskFieldsAt_spec keys path hfields (show fieldNodes children ≤ fuel by omega)
      have halloc := prefix_alloc mem' (.map refs)
      refine ⟨_, (mem'.alloc (.map refs)).2, ?_, hgrows.trans halloc, ?_⟩
      · simp only [recursiveMaskAt, hread, hmask]
        rfl
      · rw [Node.recursiveMask]
        exact .map (read_alloc _ _) (hholds.mono halloc)
  | .slice children, _, mem, fuel + 1, path, .slice hread helems, hfuel => by
      rw [Node.nodes] at hfuel
      obtain ⟨mem', refs, hmask, hgrows, hholds⟩ :=
        maskElemsAt_spec keys path 0 helems (show elemNodes children ≤ fuel by omega)
      have halloc := prefix_alloc mem' (.slice refs)
      refine ⟨_, (mem'.alloc (.slice refs)).2, ?_, hgrows.trans halloc, ?_⟩
      · simp only [recursiveMaskAt, hread, hmask]
        rfl
      · rw [Node.recursiveMask]
        exact .slice (read_alloc _ _) (hholds.mono halloc)

theorem maskFieldsAt_spec (keys : List String) : ∀ {children : List (String × Node)}
    {refs : List (String × Ref)} {mem : Memory} {fuel : ℕ} (path : String),
      mem.HoldsFields refs children → fieldNodes children ≤ fuel →
        ∃ mem' refs', maskFieldsAt (recursiveMaskAt keys fuel) keys path refs mem =
            .ok (mem', refs') ∧ mem <+: mem' ∧
          mem'.HoldsFields refs' (maskFields keys path children)
  | [], _, mem, _, _, .nil, _ => ⟨mem, [], rfl, List.prefix_refl mem, .nil⟩
  | (k, t) :: rest, _, mem, fuel, path, .cons _ hfirst hrest, hfuel => by
      rw [fieldNodes] at hfuel
      rw [maskFields]
      simp only [maskFieldsAt]
      split_ifs
      · exact maskFieldsAt_spec keys path hrest (by omega)
      · obtain ⟨mem₁, n, hmask, hgrows, hholds⟩ :=
          recursiveMaskAt_spec keys (childKey path k) hfirst (show t.nodes ≤ fuel by omega)
        obtain ⟨mem₂, refs, hmask', hgrows', hholds'⟩ :=
          maskFieldsAt_spec keys path (hrest.mono hgrows) (show fieldNodes rest ≤ fuel by omega)
        refine ⟨mem₂, (k, n) :: refs, ?_, hgrows.trans hgrows',
          .cons k (hholds.mono hgrows') hholds'⟩
        simp only [hmask, Go.ok_bind, hmask']
        rfl

theorem maskElemsAt_spec (keys : List String) : ∀ {children : List Node} {refs : List Ref}
    {mem : Memory} {fuel : ℕ} (path : String) (i : ℕ), mem.HoldsElems refs children →
      elemNodes children ≤ fuel →
        ∃ mem' refs', maskElemsAt (recursiveMaskAt keys fuel) keys path i refs mem =
            .ok (mem', refs') ∧ mem <+: mem' ∧
          mem'.HoldsElems refs' (maskElems keys path i children)
  | [], _, mem, _, _, _, .nil, _ => ⟨mem, [], rfl, List.prefix_refl mem, .nil⟩
  | t :: rest, _, mem, fuel, path, i, .cons hfirst hrest, hfuel => by
      rw [elemNodes] at hfuel
      rw [maskElems]
      simp only [maskElemsAt]
      split_ifs
      · exact maskElemsAt_spec keys path (i + 1) hrest (by omega)
      · obtain ⟨mem₁, n, hmask, hgrows, hholds⟩ :=
          recursiveMaskAt_spec keys (childKey path (Strings.itoa i)) hfirst
            (show t.nodes ≤ fuel by omega)
        obtain ⟨mem₂, refs, hmask', hgrows', hholds'⟩ :=
          maskElemsAt_spec keys path (i + 1) (hrest.mono hgrows)
            (show elemNodes rest ≤ fuel by omega)
        refine ⟨mem₂, n :: refs, ?_, hgrows.trans hgrows', .cons (hholds.mono hgrows') hholds'⟩
        simp only [hmask, Go.ok_bind, hmask']
        rfl

end

/-- **`Mask` in memory**: it returns when masking the tree does, with a pointer to the masked tree,
and every pointer there was stands for the tree it stood for. -/
theorem maskAt_spec {mem : Memory} {n : Ref} {t : Node} (h : mem.Holds n t) {fuel : ℕ}
    (hfuel : t.nodes ≤ fuel) {keys keys' : List String} {masked : Node}
    (hmask : t.mask keys = .ok (masked, keys')) :
    ∃ mem' n', maskAt fuel mem n keys = .ok (mem', n', keys') ∧ mem'.Holds n' masked ∧
      ∀ r s, mem.Holds r s → mem'.Holds r s := by
  rw [Node.mask, Go.bind_eq_ok] at hmask
  obtain ⟨⟨validKeys, _⟩, hvalid, hreturn⟩ := hmask
  obtain ⟨rfl, rfl⟩ := Prod.mk.inj (Except.ok.inj hreturn)
  obtain ⟨mem', n', hrec, hgrows, hholds⟩ := recursiveMaskAt_spec validKeys "" h hfuel
  refine ⟨mem', n', ?_, hholds, fun r s hr => hr.mono hgrows⟩
  simp only [maskAt, treeAt_of_holds h hfuel, Go.ok_bind, hvalid, hrec]
  rfl

end Mask

end Mapnode
end IntegrityShield
