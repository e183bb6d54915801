/-
# The difference of two trees

`FindDiffBetweenNodes`, `extractComparableMap` and `removeKeyDiffsInListNode`
of `shield/pkg/util/mapnode/node.go`, `DiffResult.Filter`, `DiffResult.Remove`
and `DiffPattern.Match` of `shield/pkg/util/mapnode/diff.go`.

Two trees are compared on their flattened maps.  Values of different types are
split off first, because `github.com/r3labs/diff` rejects them; it gets the
rest, and all that is used of it is that it reports exactly the created,
deleted and updated keys (`R3labsDiff`).  A created and a deleted leaf of equal
value then cancel each other when their paths differ only in list indices, or
rather when the path of the one, its indices generalised, matches inside the
path of the other.
-/

import IntegrityShield.Mapnode.Mask

namespace IntegrityShield
namespace Mapnode

/-- `diff.CREATE`, `diff.UPDATE`, `diff.DELETE`. -/
inductive ChangeType where
  | create
  | update
  | delete
deriving DecidableEq

/-- `diff.Change` of two flat maps: `Path` is the key alone. -/
structure Change where
  type : ChangeType
  key : String
  before : Option Scalar
  after : Option Scalar
deriving DecidableEq

/-- The change from one map to the other at a key. -/
def changeAt (m₁ m₂ : FlatMap) (k : String) : Change :=
  let type := match m₁.lookup k, m₂.lookup k with
    | none, _ => .create
    | some _, none => .delete
    | some _, some _ => .update
  ⟨type, k, m₁.lookup k, m₂.lookup k⟩

/-- Both maps have the key, with values of different types. -/
def typeMismatch (m₁ m₂ : FlatMap) (k : String) : Bool :=
  match m₁.lookup k, m₂.lookup k with
  | some v₁, some v₂ => v₁.goType != v₂.goType
  | _, _ => false

/-- `github.com/r3labs/diff` on two flat maps without a type mismatch: one
change for every key at which they differ. -/
class R3labsDiff where
  diff : FlatMap → FlatMap → List Change
  mem_diff : ∀ m₁ m₂, (∀ k, typeMismatch m₁ m₂ k = false) → ∀ c,
    c ∈ diff m₁ m₂ ↔ m₁.lookup c.key ≠ m₂.lookup c.key ∧ c = changeAt m₁ m₂ c.key

/-- `Difference`: the two values of `Values`, `none` for nil. -/
structure Difference where
  key : String
  before : Option Scalar
  after : Option Scalar
deriving DecidableEq

/-- `DiffResult`. -/
structure DiffResult where
  items : List Difference := []
deriving DecidableEq

/-- The keys of either map, each once. -/
def unionKeys (m₁ m₂ : FlatMap) : List String := m₁.keys ++ m₂.keys.filter fun k => decide (k ∉ m₁)

/-- The entries of a map at some keys. -/
def restrict (m : FlatMap) (keys : List String) : FlatMap :=
  GoMap.writes ∅ (keys.filterMap fun k => (m.lookup k).map (k, ·))

/-- `extractComparableMap`. -/
def extractComparableMap (m₁ m₂ : FlatMap) : FlatMap × FlatMap × List Difference :=
  let keys := unionKeys m₁ m₂
  let same := keys.filter fun k => !typeMismatch m₁ m₂ k
  let typeDiffs := (keys.filter (typeMismatch m₁ m₂)).map fun k =>
    (⟨k, (m₁.lookup k).map Scalar.tagged, (m₂.lookup k).map Scalar.tagged⟩ : Difference)
  (restrict m₁ same, restrict m₂ same, typeDiffs)

section

variable [Regexp.UnicodeTables]

/-- Whether a path has an index between two dots: `\.\d+\.`. -/
def hasIndex (key : String) : Bool := Regexp.matchString "\\.\\d+\\." key

/-- The path with each such index replaced by the expression for one. -/
def searchKey (key : String) : String :=
  match Regexp.parse "\\.\\d+\\." with
  | some re => re.replaceAllString key "\\.\\d+\\."
  | none => key

/-- Whether `tmpItem` makes `removeKeyDiffsInListNode` drop `item`. -/
def cancels (item tmpItem : Difference) : Bool :=
  Regexp.matchString (searchKey item.key) tmpItem.key &&
    ((item.after == tmpItem.before && tmpItem.after == none && item.before == none) ||
      (item.before == tmpItem.after && tmpItem.before == none && item.after == none))

/-- `removeKeyDiffsInListNode`. -/
def removeKeyDiffsInListNode (items : List Difference) : List Difference :=
  items.filter fun item =>
    !(hasIndex item.key && (item.before == none || item.after == none) &&
      items.any (cancels item))

variable [R3labsDiff]

/-- `FindDiffBetweenNodes`; `findType` says which types of changes count. -/
def findDiffBetweenNodes (t₁ t₂ : Node) (findType : ChangeType → Bool) : Option DiffResult :=
  let m₁ := t₁.ravel
  let m₂ := t₂.ravel
  if GoMap.deepEqual m₁ m₂ then none
  else
    let (nm₁, nm₂, typeDiffs) := extractComparableMap m₁ m₂
    let changelog := R3labsDiff.diff nm₁ nm₂
    if changelog.length = 0 ∧ typeDiffs.length = 0 then none
    else
      let items := (changelog.filter fun c => findType c.type).map fun c =>
        (⟨c.key, c.before, c.after⟩ : Difference)
      let items := removeKeyDiffsInListNode items ++ typeDiffs
      some ⟨items.insertionSort fun a b => a.key ≤ b.key⟩

/-- `Node.Diff`. -/
def Node.diff (t t₂ : Node) : Option DiffResult := findDiffBetweenNodes t t₂ fun _ => true

/-- `Node.DiffSpecificType`. -/
def Node.diffSpecificType (t t₂ : Node) (findTypeList : List ChangeType) : Option DiffResult :=
  findDiffBetweenNodes t t₂ fun type => decide (type ∈ findTypeList)

/-- `Node.FindUpdatedAndDeleted`. -/
def Node.findUpdatedAndDeleted (t t₂ : Node) : Option DiffResult :=
  t.diffSpecificType t₂ [.update, .delete]

end

section

variable [Regexp.UnicodeTables]

/-- `DiffPattern.Match`. -/
def Difference.matchPattern (d d₂ : Difference) : Bool :=
  if d.key = d₂.key then
    if d.before = d₂.before ∧ d.after = d₂.after then true
    else match d.before, d₂.before, d.after, d₂.after with
      | some (.str d1b), some (.str d2b), some (.str d1a), some (.str d2a) =>
          isListed d2b d1b && isListed d2a d1a
      | _, _, _, _ => false
  else false

/-- `DiffResult.Remove`. -/
def DiffResult.remove (dr : DiffResult) (patterns : List Difference) : DiffResult :=
  ⟨dr.items.filter fun d => !patterns.any fun p => p.matchPattern d⟩

/-- `DiffResult.Filter`: the items some mask key is a prefix of, the others,
and the mask keys that matched. -/
def DiffResult.filter (dr : DiffResult) (maskKeys : List String) :
    DiffResult × DiffResult × List String :=
  let maskKeys := maskKeys.map fun key => key ++ "*"
  let listed := fun (d : Difference) => keyExistsInList maskKeys d.key
  (⟨dr.items.filter fun d => (listed d).1⟩, ⟨dr.items.filter fun d => !(listed d).1⟩,
    (dr.items.filter fun d => (listed d).1).map fun d => (listed d).2)

end

/-- `DiffResult.Size`. -/
def DiffResult.size (dr : DiffResult) : ℕ := dr.items.length

end Mapnode
end IntegrityShield
