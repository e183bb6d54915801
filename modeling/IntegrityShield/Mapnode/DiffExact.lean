/-
# Laws of the difference

`Node.Diff` of `shield/pkg/util/mapnode/node.go` gathers its items in two ways, from the values of
different types and from the change log of `github.com/r3labs/diff` on the rest, takes some of the
latter out again and sorts what is left.  Every item is determined by its key (`differenceAt`), so
the sort has no choice.

Away from lists nothing is taken out: a path without an index between two dots is never cancelled
(`hasIndex_iff`), and the items are the differing paths in ascending order (`diff_exact`).  With
lists the two conditions for cancelling an item are mirror images, and exchanging the trees
exchanges the two sides of every item (`diff_swap`).
-/

import IntegrityShield.Base.RegexpText
import IntegrityShield.Mapnode.DiffLaws

namespace IntegrityShield
namespace Mapnode

/-! ## Items -/

/-- The item of a differing path: the two values, or their renderings if the types differ. -/
def differenceAt (m₁ m₂ : FlatMap) (k : String) : Difference :=
  if typeMismatch m₁ m₂ k then
    ⟨k, (m₁.lookup k).map Scalar.tagged, (m₂.lookup k).map Scalar.tagged⟩
  else ⟨k, m₁.lookup k, m₂.lookup k⟩

theorem mem_typeDiffs {m₁ m₂ : FlatMap} {d : Difference} :
    d ∈ (extractComparableMap m₁ m₂).2.2 ↔
      typeMismatch m₁ m₂ d.key = true ∧ d = differenceAt m₁ m₂ d.key := by
  constructor
  · intro hd
    obtain ⟨k, hk, rfl⟩ := List.mem_map.1 hd
    have hmismatch := (List.mem_filter.1 hk).2
    exact ⟨hmismatch, by rw [differenceAt, if_pos hmismatch]⟩
  · rintro ⟨hmismatch, hd⟩
    obtain ⟨d', hd', hkey⟩ := (mem_typeDiffs_key m₁ m₂ d.key).2 hmismatch
    obtain ⟨k, hk, rfl⟩ := List.mem_map.1 hd'
    obtain rfl : k = d.key := hkey
    rw [hd, differenceAt, if_pos hmismatch]
    exact hd'

theorem nodup_unionKeys (m₁ m₂ : FlatMap) : (unionKeys m₁ m₂).Nodup := by
  refine List.Nodup.append m₁.nodupKeys (m₂.nodupKeys.filter _) ?_
  intro k hk hk'
  exact of_decide_eq_true (List.mem_filter.1 hk').2 hk

theorem nodup_typeDiffs_keys (m₁ m₂ : FlatMap) :
    ((extractComparableMap m₁ m₂).2.2.map Difference.key).Nodup := by
  have hkeys : (extractComparableMap m₁ m₂).2.2.map Difference.key =
      (unionKeys m₁ m₂).filter (typeMismatch m₁ m₂) :=
    (List.map_map ..).trans (List.map_id _)
  rw [hkeys]
  exact (nodup_unionKeys m₁ m₂).filter _

section Changes

variable [R3labsDiff]

/-- The library reports each change once. -/
def R3labsDiff.ReportsOnce : Prop :=
  ∀ m₁ m₂ : FlatMap, (∀ k, typeMismatch m₁ m₂ k = false) → (R3labsDiff.diff m₁ m₂).Nodup

theorem eq_differenceAt_of_mem_changeItems {m₁ m₂ : FlatMap} {d : Difference}
    (h : d ∈ changeItems m₁ m₂) : d = differenceAt m₁ m₂ d.key := by
  obtain ⟨hmismatch, _, hbefore, hafter⟩ := (mem_changeItems m₁ m₂ d).1 h
  rw [differenceAt, hmismatch, if_neg Bool.false_ne_true, ← hbefore, ← hafter]

theorem nodup_changeItems_keys (honce : R3labsDiff.ReportsOnce) (m₁ m₂ : FlatMap) :
    ((changeItems m₁ m₂).map Difference.key).Nodup := by
  have hmismatch := typeMismatch_extractComparableMap m₁ m₂
  have hkeys : (changeItems m₁ m₂).map Difference.key =
      (R3labsDiff.diff (extractComparableMap m₁ m₂).1 (extractComparableMap m₁ m₂).2.1).map
        Change.key := by
    rw [changeItems, List.filter_true, List.map_map]
    rfl
  rw [hkeys]
  -- a change is determined by its key
  refine List.Nodup.map_on ?_ (honce _ _ hmismatch)
  intro c hc c' hc' heq
  rw [((R3labsDiff.mem_diff _ _ hmismatch c).1 hc).2, heq,
    ← ((R3labsDiff.mem_diff _ _ hmismatch c').1 hc').2]

variable [Regexp.UnicodeTables]

/-- The items of a difference before they are sorted. -/
def diffItems (m₁ m₂ : FlatMap) : List Difference :=
  removeKeyDiffsInListNode (changeItems m₁ m₂) ++ (extractComparableMap m₁ m₂).2.2

/-- **An item is determined by its key.** -/
theorem eq_differenceAt {m₁ m₂ : FlatMap} {d : Difference} (h : d ∈ diffItems m₁ m₂) :
    d = differenceAt m₁ m₂ d.key := by
  rcases List.mem_append.1 h with h | h
  · exact eq_differenceAt_of_mem_changeItems (List.mem_filter.1 h).1
  · exact (mem_typeDiffs.1 h).2

/-- A difference that is not nil has these items, sorted. -/
theorem items_of_diff {t₁ t₂ : Node} {dr : DiffResult} (h : t₁.diff t₂ = some dr) :
    dr.items = (diffItems t₁.ravel t₂.ravel).insertionSort fun a b => a.key ≤ b.key := by
  rw [findDiffBetweenNodes_all] at h
  split_ifs at h
  rw [← Option.some.inj h]
  rfl

end Changes

/-! ## Paths without an index -/

/-- A path with a numeric segment between two dots. -/
def Numbered (path : String) : Prop :=
  ∃ ds, ds ≠ [] ∧ (∀ c ∈ ds, c.isDigit = true) ∧ ('.' :: ds ++ ['.']) <:+: path.toList

theorem mem_run_digits {b r : List Char} {p : Regexp.Pos} :
    p ∈ (Regexp.Re.rep 1 none true (.char Char.isDigit)).run (b, r) ↔
      ∃ ds r', ds ≠ [] ∧ (∀ c ∈ ds, c.isDigit = true) ∧ r = ds ++ r' ∧
        p = (ds.reverse ++ b, r') := by
  rw [Regexp.Re.run, List.mem_flatMap]
  simp only [Regexp.times, List.flatMap_singleton', Option.map_none, Option.getD_none]
  constructor
  · rintro ⟨q, hq, hp⟩
    obtain ⟨d, r₁, rfl, hd, rfl⟩ := Regexp.mem_run_char.1 hq
    obtain ⟨ds, r₂, rfl, hds, rfl⟩ := (Regexp.mem_upTo_char (Nat.le_refl _)).1 hp
    refine ⟨d :: ds, r₂, List.cons_ne_nil d ds, List.forall_mem_cons.2 ⟨hd, hds⟩, rfl, ?_⟩
    rw [List.reverse_cons, List.append_assoc, List.singleton_append]
  · rintro ⟨ds, r', hne, hds, rfl, rfl⟩
    obtain ⟨d, ds, rfl⟩ := List.exists_cons_of_ne_nil hne
    obtain ⟨hd, hds⟩ := List.forall_mem_cons.1 hds
    refine ⟨(d :: b, ds ++ r'), Regexp.mem_run_char.2 ⟨d, _, rfl, hd, rfl⟩,
      (Regexp.mem_upTo_char (Nat.le_refl _)).2 ⟨ds, r', rfl, hds, ?_⟩⟩
    rw [List.reverse_cons, List.append_assoc, List.singleton_append]

/-- A path at which two trees differ is the path of a leaf of one of them. -/
theorem exists_leaf_of_ne {t₁ t₂ : Node} {k : String}
    (h : t₁.ravel.lookup k ≠ t₂.ravel.lookup k) : ∃ l ∈ t₁.leaves ++ t₂.leaves, l.1 = k := by
  rw [lookup_ravel, lookup_ravel] at h
  cases h₁ : t₁.valueAt k with
  | some v => exact ⟨(k, v), List.mem_append_left _ (GoMap.mem_of_lastAt h₁), rfl⟩
  | none =>
      cases h₂ : t₂.valueAt k with
      | some v => exact ⟨(k, v), List.mem_append_right _ (GoMap.mem_of_lastAt h₂), rfl⟩
      | none => exact absurd (h₁.trans h₂.symm) h

section Exact

variable [Regexp.UnicodeTables]

/-- The parsed form of `\.\d+\.`. -/
theorem parse_index : Regexp.parse "\\.\\d+\\." =
    some (.cat (.char (· == '.')) (.cat (.rep 1 none true (.char Char.isDigit))
      (.cat (.char (· == '.')) .empty))) :=
  rfl

/-- **What the cancellation looks at**: paths with an index between two dots. -/
theorem hasIndex_iff (path : String) : hasIndex path = true ↔ Numbered path := by
  rw [hasIndex, Regexp.matchString, parse_index]
  refine Regexp.search_iff.trans ?_
  constructor
  · rintro ⟨a, z, hpath, p, hp⟩
    simp only [Regexp.mem_run_cat] at hp
    obtain ⟨_, hq₁, _, hq₂, _, hq₃, _⟩ := hp
    obtain ⟨c, r₁, rfl, hc, rfl⟩ := Regexp.mem_run_char.1 hq₁
    obtain ⟨ds, r₂, hne, hds, rfl, rfl⟩ := mem_run_digits.1 hq₂
    obtain ⟨c', r₃, rfl, hc', rfl⟩ := Regexp.mem_run_char.1 hq₃
    rw [beq_iff_eq.1 hc, beq_iff_eq.1 hc'] at hpath
    exact ⟨ds, hne, hds, a, r₃, by rw [hpath]; simp⟩
  · rintro ⟨ds, hne, hds, a, z, hpath⟩
    refine ⟨a, '.' :: (ds ++ '.' :: z), by rw [← hpath]; simp, ?_⟩
    simp only [Regexp.mem_run_cat]
    exact ⟨_, _, Regexp.mem_run_char.2 ⟨'.', _, rfl, rfl, rfl⟩, _,
      mem_run_digits.2 ⟨ds, '.' :: z, hne, hds, rfl, rfl⟩, _,
      Regexp.mem_run_char.2 ⟨'.', z, rfl, rfl, rfl⟩, List.mem_singleton.2 rfl⟩

theorem removeKeyDiffs_eq_self {items : List Difference}
    (h : ∀ d ∈ items, hasIndex d.key = false) : removeKeyDiffsInListNode items = items := by
  refine List.filter_eq_self.2 fun d hd => ?_
  rw [h d hd, Bool.false_and, Bool.false_and, Bool.not_false]

variable [R3labsDiff]

/-- The keys of an unsorted difference away from lists: all the differing paths, each once. -/
theorem diffItems_keys (honce : R3labsDiff.ReportsOnce) {t₁ t₂ : Node}
    (h : ∀ l ∈ t₁.leaves ++ t₂.leaves, ¬Numbered l.1) :
    ((diffItems t₁.ravel t₂.ravel).map Difference.key).Nodup ∧
      ∀ k, k ∈ (diffItems t₁.ravel t₂.ravel).map Difference.key ↔
        t₁.ravel.lookup k ≠ t₂.ravel.lookup k := by
  have hindex : ∀ d ∈ changeItems t₁.ravel t₂.ravel, hasIndex d.key = false := by
    intro d hd
    obtain ⟨l, hl, hkey⟩ := exists_leaf_of_ne ((mem_changeItems _ _ d).1 hd).2.1
    rw [← Bool.not_eq_true, hasIndex_iff, ← hkey]
    exact h l hl
  rw [diffItems, removeKeyDiffs_eq_self hindex, List.map_append]
  constructor
  · refine List.Nodup.append (nodup_changeItems_keys honce _ _) (nodup_typeDiffs_keys _ _) ?_
    intro k hk hk'
    obtain ⟨d, hd, rfl⟩ := List.mem_map.1 hk
    obtain ⟨d', hd', heq⟩ := List.mem_map.1 hk'
    have hmismatch := (mem_typeDiffs.1 hd').1
    rw [heq, ((mem_changeItems _ _ d).1 hd).1] at hmismatch
    cases hmismatch
  · intro k
    rw [List.mem_append, List.mem_map, List.mem_map]
    constructor
    · rintro (⟨d, hd, rfl⟩ | ⟨d, hd, rfl⟩)
      · exact ((mem_changeItems _ _ d).1 hd).2.1
      · exact (typeMismatch_ne (mem_typeDiffs.1 hd).1).1
    · intro hne
      cases hmismatch : typeMismatch t₁.ravel t₂.ravel k with
      | true => exact Or.inr ((mem_typeDiffs_key _ _ k).2 hmismatch)
      | false =>
          exact Or.inl ⟨⟨k, t₁.ravel.lookup k, t₂.ravel.lookup k⟩,
            (mem_changeItems _ _ _).2 ⟨hmismatch, hne, rfl, rfl⟩, rfl⟩

/-- **Away from lists the difference is exact.**  For trees without a numeric segment between two
dots of a leaf path, it is nil exactly if the flattened maps are equal; otherwise its keys ascend
strictly, they are the paths at which the maps differ, and each item has the two values there. -/
theorem diff_exact (honce : R3labsDiff.ReportsOnce) (t₁ t₂ : Node)
    (h : ∀ l ∈ t₁.leaves ++ t₂.leaves, ¬Numbered l.1) :
    (t₁.diff t₂ = none ↔ ∀ k, t₁.ravel.lookup k = t₂.ravel.lookup k) ∧
    ∀ dr, t₁.diff t₂ = some dr →
      (dr.items.map Difference.key).Pairwise (· < ·) ∧
      (∀ k, k ∈ dr.items.map Difference.key ↔ t₁.ravel.lookup k ≠ t₂.ravel.lookup k) ∧
      ∀ d ∈ dr.items, d = differenceAt t₁.ravel t₂.ravel d.key := by
  constructor
  · simp only [diff_eq_none_iff, lookup_ravel]
  intro dr hdr
  obtain ⟨hnodup, hmem⟩ := diffItems_keys honce h
  have hperm := List.perm_insertionSort (fun a b : Difference => a.key ≤ b.key)
    (diffItems t₁.ravel t₂.ravel)
  have hsorted := List.pairwise_insertionSort (fun a b : Difference => a.key ≤ b.key)
    (diffItems t₁.ravel t₂.ravel)
  rw [items_of_diff hdr]
  refine ⟨?_, fun k => ?_, fun d hd => eq_differenceAt (hperm.mem_iff.1 hd)⟩
  · have hne : ((diffItems t₁.ravel t₂.ravel).insertionSort
        fun a b => a.key ≤ b.key).Pairwise fun a b => a.key ≠ b.key :=
      List.pairwise_map.1 ((hperm.map Difference.key).nodup_iff.2 hnodup)
    refine List.pairwise_map.2 ((hsorted.and hne).imp ?_)
    rintro a b ⟨hle, hab⟩
    by_contra hlt
    exact hab (String.le_antisymm hle (String.not_lt.1 hlt))
  · rw [(hperm.map Difference.key).mem_iff, hmem]

end Exact

theorem R3labsDiff.reportsOnce_pointwise : @R3labsDiff.ReportsOnce .pointwise := by
  intro m₁ m₂ _
  refine List.Nodup.map_on ?_ ((nodup_unionKeys m₁ m₂).filter _)
  intro k _ k' _ heq
  exact congrArg Change.key heq

/-- Two labels, one changed from a flag to a text and one new. -/
theorem diff_exact_labels :
    letI := Regexp.UnicodeTables.empty
    letI := R3labsDiff.pointwise
    let t₁ : Node := .map [("a", .map [("x", .value (.bool true))])]
    let t₂ : Node := .map [("a", .map [("x", .value (.str "1")), ("y", .value (.str "2"))])]
    R3labsDiff.ReportsOnce ∧ (∀ l ∈ t₁.leaves ++ t₂.leaves, ¬Numbered l.1) ∧
      (t₁.diff t₂ = none ↔ ∀ k, t₁.ravel.lookup k = t₂.ravel.lookup k) := by
  intro t₁ t₂
  let _ := Regexp.UnicodeTables.empty
  let _ := R3labsDiff.pointwise
  have honce := R3labsDiff.reportsOnce_pointwise
  have hpaths : ∀ l ∈ t₁.leaves ++ t₂.leaves, hasIndex l.1 = false := by decide +kernel
  have hplain : ∀ l ∈ t₁.leaves ++ t₂.leaves, ¬Numbered l.1 := fun l hl hnum =>
    absurd ((hasIndex_iff l.1).2 hnum) (Bool.eq_false_iff.1 (hpaths l hl))
  exact ⟨honce, hplain, (diff_exact honce t₁ t₂ hplain).1⟩

/-! ## Exchanging the trees -/

/-- A change seen from the other side. -/
def Change.swap (c : Change) : Change :=
  let type := match c.type with
    | .create => .delete
    | .update => .update
    | .delete => .create
  ⟨type, c.key, c.after, c.before⟩

/-- An item seen from the other side. -/
def Difference.swap (d : Difference) : Difference := ⟨d.key, d.after, d.before⟩

/-- All items seen from the other side. -/
def DiffResult.swap (dr : DiffResult) : DiffResult := ⟨dr.items.map Difference.swap⟩

theorem typeMismatch_swap (m₁ m₂ : FlatMap) (k : String) :
    typeMismatch m₂ m₁ k = typeMismatch m₁ m₂ k := by
  unfold typeMismatch
  cases m₁.lookup k with
  | none => cases m₂.lookup k <;> rfl
  | some v₁ =>
      cases m₂.lookup k with
      | none => rfl
      | some v₂ => exact bne_comm

theorem perm_unionKeys_swap (m₁ m₂ : FlatMap) : (unionKeys m₂ m₁).Perm (unionKeys m₁ m₂) :=
  (List.perm_ext_iff_of_nodup (nodup_unionKeys m₂ m₁) (nodup_unionKeys m₁ m₂)).2 fun k => by
    rw [mem_unionKeys, mem_unionKeys, or_comm]

theorem perm_typeDiffs_swap (m₁ m₂ : FlatMap) :
    (extractComparableMap m₂ m₁).2.2.Perm
      ((extractComparableMap m₁ m₂).2.2.map Difference.swap) := by
  have hfilter := (perm_unionKeys_swap m₁ m₂).filter (typeMismatch m₂ m₁)
  rw [show (typeMismatch m₂ m₁) = typeMismatch m₁ m₂ from
    funext fun k => typeMismatch_swap m₁ m₂ k] at hfilter
  simp only [extractComparableMap, List.map_map, funext (typeMismatch_swap m₁ m₂)]
  exact hfilter.map _

theorem changeAt_swap {m₁ m₂ : FlatMap} {k : String} (h : m₁.lookup k ≠ m₂.lookup k) :
    changeAt m₂ m₁ k = (changeAt m₁ m₂ k).swap := by
  unfold changeAt Change.swap
  cases h₁ : m₁.lookup k with
  | none =>
      cases h₂ : m₂.lookup k with
      | none => exact absurd (h₁.trans h₂.symm) h
      | some v₂ => rfl
  | some v₁ => cases m₂.lookup k <;> rfl

section Swap

variable [R3labsDiff]

/-- Exchanging the maps exchanges the sides of every change the library reports.  The maps of the
second call may list their entries in another order. -/
def R3labsDiff.Antisymmetric : Prop :=
  ∀ m₁ m₂ n₁ n₂ : FlatMap, (∀ k, typeMismatch m₁ m₂ k = false) →
    (∀ k, n₁.lookup k = m₁.lookup k) → (∀ k, n₂.lookup k = m₂.lookup k) →
      (R3labsDiff.diff n₂ n₁).Perm ((R3labsDiff.diff m₁ m₂).map Change.swap)

/-- A library that reports each change once is antisymmetric. -/
theorem R3labsDiff.ReportsOnce.antisymmetric (honce : R3labsDiff.ReportsOnce) :
    R3labsDiff.Antisymmetric := by
  intro m₁ m₂ n₁ n₂ hmismatch hn₁ hn₂
  have hmismatch' : ∀ k, typeMismatch n₂ n₁ k = false := by
    intro k
    rw [typeMismatch_swap, ← hmismatch k, typeMismatch, typeMismatch, hn₁, hn₂]
  have hswap : Function.Injective Change.swap := by
    rintro ⟨type, key, before, after⟩ ⟨type', key', before', after'⟩ heq
    cases type <;> cases type' <;> simp_all [Change.swap]
  have hchange : ∀ k, m₁.lookup k ≠ m₂.lookup k →
      changeAt n₂ n₁ k = (changeAt m₁ m₂ k).swap := by
    intro k hne
    rw [← changeAt_swap hne, changeAt, changeAt, hn₁, hn₂]
  refine (List.perm_ext_iff_of_nodup (honce _ _ hmismatch')
    ((honce _ _ hmismatch).map hswap)).2 fun c => ?_
  rw [R3labsDiff.mem_diff _ _ hmismatch', List.mem_map, hn₁, hn₂]
  constructor
  · rintro ⟨hne, hc⟩
    refine ⟨changeAt m₁ m₂ c.key, (R3labsDiff.mem_diff _ _ hmismatch _).2 ⟨hne.symm, rfl⟩, ?_⟩
    rw [← hchange _ hne.symm, ← hc]
  · rintro ⟨c', hc', rfl⟩
    obtain ⟨hne, hc'⟩ := (R3labsDiff.mem_diff _ _ hmismatch c').1 hc'
    refine ⟨hne.symm, ?_⟩
    rw [show c'.swap.key = c'.key from rfl, hchange _ hne, ← hc']

theorem perm_changeItems_swap (hanti : R3labsDiff.Antisymmetric) (m₁ m₂ : FlatMap) :
    (changeItems m₂ m₁).Perm ((changeItems m₁ m₂).map Difference.swap) := by
  have hlookup₁ : ∀ k, (extractComparableMap m₂ m₁).2.1.lookup k =
      (extractComparableMap m₁ m₂).1.lookup k := by
    intro k
    rw [(lookup_extractComparableMap m₂ m₁ k).2, (lookup_extractComparableMap m₁ m₂ k).1,
      typeMismatch_swap]
  have hlookup₂ : ∀ k, (extractComparableMap m₂ m₁).1.lookup k =
      (extractComparableMap m₁ m₂).2.1.lookup k := by
    intro k
    rw [(lookup_extractComparableMap m₂ m₁ k).1, (lookup_extractComparableMap m₁ m₂ k).2,
      typeMismatch_swap]
  have hperm := hanti _ _ _ _ (typeMismatch_extractComparableMap m₁ m₂) hlookup₁ hlookup₂
  unfold changeItems
  rw [List.filter_true, List.filter_true, List.map_map]
  refine (hperm.map fun c : Change => (⟨c.key, c.before, c.after⟩ : Difference)).trans ?_
  rw [List.map_map]
  exact List.Perm.refl _

end Swap

section Sorted

variable [Regexp.UnicodeTables]

/-- The two conditions for cancelling an item are mirror images. -/
theorem cancels_swap (d d' : Difference) : cancels d.swap d'.swap = cancels d d' := by
  unfold cancels Difference.swap
  rw [Bool.or_comm]

theorem perm_removeKeyDiffs {items items' : List Difference}
    (h : items'.Perm (items.map Difference.swap)) :
    (removeKeyDiffsInListNode items').Perm
      ((removeKeyDiffsInListNode items).map Difference.swap) := by
  have hany : ∀ d : Difference, items'.any (cancels d.swap) = items.any (cancels d) := by
    intro d
    have hcomp : cancels d.swap ∘ Difference.swap = cancels d := by
      funext d'
      rw [Function.comp_apply, cancels_swap]
    rw [h.any_eq, List.any_map, hcomp]
  unfold removeKeyDiffsInListNode
  refine (h.filter _).trans (List.Perm.of_eq ?_)
  rw [List.filter_map]
  refine congrArg (List.map Difference.swap) (List.filter_congr fun d _ => ?_)
  rw [Function.comp_apply, hany, show d.swap.key = d.key from rfl,
    show d.swap.before = d.after from rfl, show d.swap.after = d.before from rfl, Bool.or_comm]

variable [R3labsDiff]

theorem perm_diffItems_swap (hanti : R3labsDiff.Antisymmetric) (m₁ m₂ : FlatMap) :
    (diffItems m₂ m₁).Perm ((diffItems m₁ m₂).map Difference.swap) := by
  unfold diffItems
  rw [List.map_append]
  exact (perm_removeKeyDiffs (perm_changeItems_swap hanti m₁ m₂)).append
    (perm_typeDiffs_swap m₁ m₂)

/-- The sort puts both sides into the same order. -/
theorem sort_diffItems_swap (hanti : R3labsDiff.Antisymmetric) (m₁ m₂ : FlatMap) :
    ((diffItems m₂ m₁).insertionSort fun a b => a.key ≤ b.key) =
      ((diffItems m₁ m₂).insertionSort fun a b => a.key ≤ b.key).map Difference.swap := by
  have hsorted := List.pairwise_insertionSort (fun a b : Difference => a.key ≤ b.key)
  have hperm := List.perm_insertionSort (fun a b : Difference => a.key ≤ b.key)
  refine List.Perm.eq_of_pairwise ?_ (hsorted (diffItems m₂ m₁))
    (List.pairwise_map.2 (hsorted (diffItems m₁ m₂))) ?_
  · intro x y hx hy hxy hyx
    have hx' := eq_differenceAt ((hperm _).mem_iff.1 hx)
    have hy' := eq_differenceAt
      ((perm_diffItems_swap hanti m₁ m₂).mem_iff.2 (((hperm _).map _).mem_iff.1 hy))
    rw [hx', hy', String.le_antisymm hxy hyx]
  · exact (hperm _).trans ((perm_diffItems_swap hanti m₁ m₂).trans ((hperm _).map _).symm)

/-- **The difference is antisymmetric**: nil the other way round exactly if it is nil, and
otherwise the same keys in the same order, with the two sides of every item exchanged. -/
theorem diff_swap (hanti : R3labsDiff.Antisymmetric) (t₁ t₂ : Node) :
    t₂.diff t₁ = (t₁.diff t₂).map DiffResult.swap := by
  cases h : t₁.diff t₂ with
  | none =>
      rw [diff_eq_none_iff] at h
      exact (diff_eq_none_iff t₂ t₁).2 fun path => (h path).symm
  | some dr =>
      cases h' : t₂.diff t₁ with
      | none =>
          have hsame := (diff_eq_none_iff t₂ t₁).1 h'
          rw [(diff_eq_none_iff t₁ t₂).2 fun path => (hsame path).symm] at h
          cases h
      | some dr' =>
          have hitems := sort_diffItems_swap hanti t₁.ravel t₂.ravel
          rw [← items_of_diff h, ← items_of_diff h'] at hitems
          refine congrArg some ?_
          rw [DiffResult.swap, ← hitems]

end Sorted

/-- A leaf that moves between two elements of a list, and one that is new. -/
theorem diff_swap_elements :
    letI := Regexp.UnicodeTables.empty
    letI := R3labsDiff.pointwise
    let t₁ : Node := .map [("l", .slice [.map [("a", .value (.str "1"))], .map []])]
    let t₂ : Node := .map [("l", .slice [.map [], .map [("a", .value (.str "1"))]]),
      ("m", .value (.bool true))]
    R3labsDiff.Antisymmetric ∧ t₂.diff t₁ = (t₁.diff t₂).map DiffResult.swap := by
  intro t₁ t₂
  let _ := Regexp.UnicodeTables.empty
  let _ := R3labsDiff.pointwise
  have hanti := R3labsDiff.reportsOnce_pointwise.antisymmetric
  exact ⟨hanti, diff_swap hanti t₁ t₂⟩

end Mapnode
end IntegrityShield
