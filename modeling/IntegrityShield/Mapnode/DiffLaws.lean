/-
# What a difference reports

`Node.Diff` read on the leaves of the two trees.  It is nil exactly when both
show the same value at every dotted path (`diff_eq_none_iff`).  Otherwise its
items are the paths at which they differ, less the cancelled ones
(`mem_diff_key_iff`): a path that only one of the trees has is cancelled when
the other has the same value at some path, absent from the first, that matches
the generalised form of the path (`Cancelled`).

Of the updated and deleted paths alone none is cancelled, and there is none exactly when the second
tree has all values of the first (`findUpdatedAndDeleted_size`).
-/

import IntegrityShield.Mapnode.Diff

namespace IntegrityShield
namespace Mapnode

theorem lookup_restrict (m : FlatMap) (keys : List String) (k : String) :
    (restrict m keys).lookup k = if k ∈ keys then m.lookup k else none := by
  rw [restrict, GoMap.lookup_writes, GoMap.lastAt_filterMap]

theorem mem_unionKeys (m₁ m₂ : FlatMap) (k : String) :
    k ∈ unionKeys m₁ m₂ ↔ m₁.lookup k ≠ none ∨ m₂.lookup k ≠ none := by
  simp only [unionKeys, List.mem_append, List.mem_filter, decide_eq_true_eq, ne_eq,
    AList.lookup_eq_none, not_not, ← AList.mem_keys]
  tauto

/-- A change log that has one change for every differing key, as the interface
asks. -/
@[reducible] def R3labsDiff.pointwise : R3labsDiff where
  diff m₁ m₂ :=
    ((unionKeys m₁ m₂).filter fun k => decide (m₁.lookup k ≠ m₂.lookup k)).map (changeAt m₁ m₂)
  mem_diff m₁ m₂ _ c := by
    simp only [List.mem_map, List.mem_filter, decide_eq_true_eq]
    constructor
    · rintro ⟨k, ⟨_, hne⟩, rfl⟩
      exact ⟨hne, rfl⟩
    · rintro ⟨hne, hc⟩
      refine ⟨c.key, ⟨(mem_unionKeys m₁ m₂ c.key).2 ?_, hne⟩, hc.symm⟩
      by_contra hboth
      push Not at hboth
      exact hne (hboth.1.trans hboth.2.symm)

/-- The comparable parts agree with the maps wherever the types agree, and have
no key where they do not. -/
theorem lookup_extractComparableMap (m₁ m₂ : FlatMap) (k : String) :
    (extractComparableMap m₁ m₂).1.lookup k =
        (if typeMismatch m₁ m₂ k then none else m₁.lookup k) ∧
      (extractComparableMap m₁ m₂).2.1.lookup k =
        if typeMismatch m₁ m₂ k then none else m₂.lookup k := by
  have hk := mem_unionKeys m₁ m₂ k
  simp only [extractComparableMap, lookup_restrict, List.mem_filter, Bool.not_eq_true', hk]
  cases typeMismatch m₁ m₂ k <;> cases m₁.lookup k <;> cases m₂.lookup k <;> simp

theorem typeMismatch_extractComparableMap (m₁ m₂ : FlatMap) (k : String) :
    typeMismatch (extractComparableMap m₁ m₂).1 (extractComparableMap m₁ m₂).2.1 k = false := by
  obtain ⟨h₁, h₂⟩ := lookup_extractComparableMap m₁ m₂ k
  unfold typeMismatch
  rw [h₁, h₂]
  cases h : typeMismatch m₁ m₂ k with
  | true => rfl
  | false =>
      unfold typeMismatch at h
      simpa using h

/-- A type difference is reported at every path with a mismatch. -/
theorem mem_typeDiffs_key (m₁ m₂ : FlatMap) (k : String) :
    (∃ d ∈ (extractComparableMap m₁ m₂).2.2, d.key = k) ↔ typeMismatch m₁ m₂ k = true := by
  simp only [extractComparableMap, List.mem_map, List.mem_filter]
  constructor
  · rintro ⟨d, ⟨k', ⟨_, hk'⟩, rfl⟩, rfl⟩
    exact hk'
  · intro h
    refine ⟨_, ⟨k, ⟨?_, h⟩, rfl⟩, rfl⟩
    rw [mem_unionKeys]
    left
    intro hn
    simp [typeMismatch, hn] at h

/-- A mismatch is a difference between two present values. -/
theorem typeMismatch_ne {m₁ m₂ : FlatMap} {k : String} (h : typeMismatch m₁ m₂ k = true) :
    m₁.lookup k ≠ m₂.lookup k ∧ m₁.lookup k ≠ none ∧ m₂.lookup k ≠ none := by
  unfold typeMismatch at h
  cases h₁ : m₁.lookup k with
  | none => simp [h₁] at h
  | some v₁ =>
      cases h₂ : m₂.lookup k with
      | none => simp [h₁, h₂] at h
      | some v₂ =>
          simp only [h₁, h₂, bne_iff_ne, ne_eq] at h
          refine ⟨fun he => h ?_, by simp, by simp⟩
          rw [Option.some.inj he]

variable [R3labsDiff]

/-- The change log of the comparable parts, as differences. -/
def changeItems (m₁ m₂ : FlatMap) : List Difference :=
  ((R3labsDiff.diff (extractComparableMap m₁ m₂).1 (extractComparableMap m₁ m₂).2.1).filter
    fun _ => true).map fun c => ⟨c.key, c.before, c.after⟩

/-- The change log has the differing keys with values of one type. -/
theorem mem_changelog (m₁ m₂ : FlatMap) (c : Change) :
    c ∈ R3labsDiff.diff (extractComparableMap m₁ m₂).1 (extractComparableMap m₁ m₂).2.1 ↔
      typeMismatch m₁ m₂ c.key = false ∧ m₁.lookup c.key ≠ m₂.lookup c.key ∧
        c = changeAt m₁ m₂ c.key := by
  obtain ⟨h₁, h₂⟩ := lookup_extractComparableMap m₁ m₂ c.key
  rw [R3labsDiff.mem_diff _ _ (typeMismatch_extractComparableMap m₁ m₂), changeAt, h₁, h₂]
  cases typeMismatch m₁ m₂ c.key with
  | true => simp
  | false =>
      rw [eq_self, true_and]
      rfl

theorem mem_changeItems (m₁ m₂ : FlatMap) (d : Difference) :
    d ∈ changeItems m₁ m₂ ↔ typeMismatch m₁ m₂ d.key = false ∧
      m₁.lookup d.key ≠ m₂.lookup d.key ∧ d.before = m₁.lookup d.key ∧
      d.after = m₂.lookup d.key := by
  simp only [changeItems, List.filter_true, List.mem_map, mem_changelog]
  constructor
  · rintro ⟨c, ⟨hm, hne, hc⟩, rfl⟩
    exact ⟨hm, hne, congrArg Change.before hc, congrArg Change.after hc⟩
  · rintro ⟨hm, hne, hb, ha⟩
    refine ⟨changeAt m₁ m₂ d.key, ⟨hm, hne, rfl⟩, ?_⟩
    rw [changeAt, ← hb, ← ha]

variable [Regexp.UnicodeTables]

/-- A path that one tree lacks is cancelled by a path `k'`, matching its
generalised form, where the same value comes the other way. -/
def Cancelled (t₁ t₂ : Node) (k : String) : Prop :=
  hasIndex k = true ∧ ∃ k', Regexp.matchString (searchKey k) k' = true ∧
    ((t₁.valueAt k ≠ none ∧ t₂.valueAt k = none ∧
        t₁.valueAt k' = none ∧ t₂.valueAt k' = t₁.valueAt k) ∨
      (t₁.valueAt k = none ∧ t₂.valueAt k ≠ none ∧
        t₁.valueAt k' = t₂.valueAt k ∧ t₂.valueAt k' = none))

theorem findDiffBetweenNodes_all (t₁ t₂ : Node) :
    t₁.diff t₂ =
      if GoMap.deepEqual t₁.ravel t₂.ravel then none
      else if (R3labsDiff.diff (extractComparableMap t₁.ravel t₂.ravel).1
          (extractComparableMap t₁.ravel t₂.ravel).2.1).length = 0 ∧
          (extractComparableMap t₁.ravel t₂.ravel).2.2.length = 0 then none
      else some ⟨(removeKeyDiffsInListNode (changeItems t₁.ravel t₂.ravel) ++
        (extractComparableMap t₁.ravel t₂.ravel).2.2).insertionSort fun a b => a.key ≤ b.key⟩ :=
  rfl

/-- **A nil difference means the same flattened maps**, and nothing more. -/
theorem diff_eq_none_iff (t₁ t₂ : Node) :
    t₁.diff t₂ = none ↔ ∀ path, t₁.valueAt path = t₂.valueAt path := by
  rw [findDiffBetweenNodes_all, ← deepEqual_ravel_iff]
  constructor
  · intro h
    by_contra hne
    rw [if_neg hne] at h
    split at h
    · rename_i hlen
      refine hne ((GoMap.deepEqual_iff _ _).2 fun k => ?_)
      by_contra hk
      cases hm : typeMismatch t₁.ravel t₂.ravel k with
      | true =>
          obtain ⟨d, hd, _⟩ := (mem_typeDiffs_key t₁.ravel t₂.ravel k).2 hm
          rw [List.length_eq_zero_iff.1 hlen.2] at hd
          exact List.not_mem_nil hd
      | false =>
          have hd := (mem_changeItems t₁.ravel t₂.ravel
            ⟨k, t₁.ravel.lookup k, t₂.ravel.lookup k⟩).2 ⟨hm, hk, rfl, rfl⟩
          rw [changeItems, List.length_eq_zero_iff.1 hlen.1] at hd
          exact List.not_mem_nil hd
    · cases h
  · intro h
    rw [if_pos h]

/-- A created or deleted leaf is dropped exactly when it is cancelled. -/
theorem dropped_iff_cancelled (t₁ t₂ : Node) {d : Difference}
    (hd : d ∈ changeItems t₁.ravel t₂.ravel) :
    (hasIndex d.key && (d.before == none || d.after == none) &&
        (changeItems t₁.ravel t₂.ravel).any (cancels d)) = true ↔ Cancelled t₁ t₂ d.key := by
  obtain ⟨hm, hne, hb, ha⟩ := (mem_changeItems _ _ d).1 hd
  simp only [lookup_ravel] at hne hb ha
  have hother : ∀ k' b a, (⟨k', b, a⟩ : Difference) ∈ changeItems t₁.ravel t₂.ravel →
      b = t₁.valueAt k' ∧ a = t₂.valueAt k' := by
    intro k' b a h
    obtain ⟨_, _, hb', ha'⟩ := (mem_changeItems _ _ _).1 h
    simp only [lookup_ravel] at hb' ha'
    exact ⟨hb', ha'⟩
  -- a path only one tree has is never a type mismatch
  have hitem : ∀ k', t₁.valueAt k' ≠ t₂.valueAt k' →
      t₁.valueAt k' = none ∨ t₂.valueAt k' = none →
        (⟨k', t₁.valueAt k', t₂.valueAt k'⟩ : Difference) ∈ changeItems t₁.ravel t₂.ravel := by
    intro k' hne' hone
    refine (mem_changeItems _ _ _).2 ⟨?_, by simpa only [lookup_ravel] using hne',
      (lookup_ravel ..).symm, (lookup_ravel ..).symm⟩
    cases h : typeMismatch t₁.ravel t₂.ravel k' with
    | false => rfl
    | true =>
        obtain ⟨_, h₁, h₂⟩ := typeMismatch_ne h
        simp only [lookup_ravel] at h₁ h₂
        exact absurd hone (not_or.2 ⟨h₁, h₂⟩)
  simp only [Cancelled, Bool.and_eq_true, Bool.or_eq_true, beq_iff_eq, List.any_eq_true, cancels]
  constructor
  · rintro ⟨⟨hidx, _⟩, ⟨k', b', a'⟩, htmp, hmatch, hval⟩
    obtain ⟨rfl, rfl⟩ := hother _ _ _ htmp
    refine ⟨hidx, k', hmatch, ?_⟩
    rcases hval with ⟨⟨h₁, h₂⟩, h₃⟩ | ⟨⟨h₁, h₂⟩, h₃⟩
    · right
      exact ⟨hb ▸ h₃, fun h => hne (by rw [h, ← hb, h₃]), (ha ▸ h₁).symm, h₂⟩
    · left
      exact ⟨fun h => hne (by rw [h, ← ha, h₃]), ha ▸ h₃, h₂, (hb ▸ h₁).symm⟩
  · rintro ⟨hidx, k', hmatch, hval⟩
    rcases hval with ⟨h₁, h₂, h₃, h₄⟩ | ⟨h₁, h₂, h₃, h₄⟩
    · refine ⟨⟨hidx, Or.inr (ha.trans h₂)⟩, _, hitem k' ?_ (Or.inl h₃), hmatch, Or.inr ?_⟩
      · rw [h₃, h₄]
        exact h₁.symm
      · exact ⟨⟨hb.trans h₄.symm, h₃⟩, ha.trans h₂⟩
    · refine ⟨⟨hidx, Or.inl (hb.trans h₁)⟩, _, hitem k' ?_ (Or.inr h₄), hmatch, Or.inl ?_⟩
      · rw [h₃, h₄]
        exact h₂
      · exact ⟨⟨ha.trans h₃.symm, h₄⟩, hb.trans h₁⟩

/-- **The items of a difference are the differing paths that are not
cancelled.** -/
theorem mem_diff_key_iff {t₁ t₂ : Node} {dr : DiffResult} (h : t₁.diff t₂ = some dr) (k : String) :
    (∃ d ∈ dr.items, d.key = k) ↔
      t₁.valueAt k ≠ t₂.valueAt k ∧ ¬ Cancelled t₁ t₂ k := by
  rw [findDiffBetweenNodes_all] at h
  split at h
  · cases h
  split at h
  · cases h
  obtain rfl := Option.some.inj h
  simp only [List.mem_insertionSort, List.mem_append, removeKeyDiffsInListNode, List.mem_filter,
    Bool.not_eq_true']
  constructor
  · rintro ⟨d, ⟨hd, hkeep⟩ | hd, rfl⟩
    · obtain ⟨_, hne, _⟩ := (mem_changeItems _ _ d).1 hd
      simp only [lookup_ravel] at hne
      refine ⟨hne, fun hc => ?_⟩
      rw [(dropped_iff_cancelled t₁ t₂ hd).2 hc] at hkeep
      cases hkeep
    · obtain ⟨hne, h₁, h₂⟩ := typeMismatch_ne ((mem_typeDiffs_key _ _ d.key).1 ⟨d, hd, rfl⟩)
      simp only [lookup_ravel] at hne h₁ h₂
      refine ⟨hne, ?_⟩
      rintro ⟨_, _, _, ⟨_, h, _⟩ | ⟨h, _⟩⟩
      · exact h₂ h
      · exact h₁ h
  · rintro ⟨hne, hnc⟩
    cases hm : typeMismatch t₁.ravel t₂.ravel k with
    | true =>
        obtain ⟨d, hd, hk⟩ := (mem_typeDiffs_key _ _ k).2 hm
        exact ⟨d, Or.inr hd, hk⟩
    | false =>
        have hd : (⟨k, t₁.valueAt k, t₂.valueAt k⟩ : Difference) ∈
            changeItems t₁.ravel t₂.ravel :=
          (mem_changeItems _ _ _).2 ⟨hm, by simpa only [lookup_ravel] using hne,
            (lookup_ravel ..).symm, (lookup_ravel ..).symm⟩
        refine ⟨_, Or.inl ⟨hd, ?_⟩, rfl⟩
        rw [← Bool.not_eq_true]
        exact fun h => hnc ((dropped_iff_cancelled t₁ t₂ hd).1 h)

/-! ## Updated and deleted paths -/

/-- Whatever the types of changes that count, only equal flattened maps give nil. -/
theorem findDiffBetweenNodes_eq_none_iff (t₁ t₂ : Node) (findType : ChangeType → Bool) :
    findDiffBetweenNodes t₁ t₂ findType = none ↔ ∀ path, t₁.valueAt path = t₂.valueAt path := by
  rw [← diff_eq_none_iff, findDiffBetweenNodes_all, findDiffBetweenNodes]
  dsimp only
  split_ifs <;> rfl

/-- The updated and deleted paths. -/
def keptItems (m₁ m₂ : FlatMap) : List Difference :=
  ((R3labsDiff.diff (extractComparableMap m₁ m₂).1 (extractComparableMap m₁ m₂).2.1).filter
    fun c => decide (c.type ∈ [ChangeType.update, .delete])).map fun c => ⟨c.key, c.before, c.after⟩

omit [Regexp.UnicodeTables] in
theorem mem_keptItems (m₁ m₂ : FlatMap) (d : Difference) :
    d ∈ keptItems m₁ m₂ ↔ typeMismatch m₁ m₂ d.key = false ∧
      m₁.lookup d.key ≠ m₂.lookup d.key ∧ m₁.lookup d.key ≠ none ∧
      d.before = m₁.lookup d.key ∧ d.after = m₂.lookup d.key := by
  have htype : ∀ k, m₁.lookup k ≠ m₂.lookup k →
      ((changeAt m₁ m₂ k).type ∈ [ChangeType.update, .delete] ↔ m₁.lookup k ≠ none) := by
    intro k hne
    simp only [changeAt]
    cases m₁.lookup k <;> cases m₂.lookup k <;> simp
  simp only [keptItems, List.mem_map, List.mem_filter, mem_changelog, decide_eq_true_eq]
  constructor
  · rintro ⟨c, ⟨⟨hm, hne, hc⟩, hkept⟩, rfl⟩
    rw [hc, htype _ hne] at hkept
    exact ⟨hm, hne, hkept, congrArg Change.before hc, congrArg Change.after hc⟩
  · rintro ⟨hm, hne, hkept, hb, ha⟩
    refine ⟨changeAt m₁ m₂ d.key, ⟨⟨hm, hne, rfl⟩, (htype _ hne).2 hkept⟩, ?_⟩
    rw [changeAt, ← hb, ← ha]

/-- To be cancelled takes a created path, as the path itself or as the one it is matched with. -/
theorem removeKeyDiffs_keptItems (m₁ m₂ : FlatMap) :
    removeKeyDiffsInListNode (keptItems m₁ m₂) = keptItems m₁ m₂ := by
  have hbefore : ∀ d ∈ keptItems m₁ m₂, d.before ≠ none := by
    intro d hd
    obtain ⟨_, _, hne, hb, _⟩ := (mem_keptItems m₁ m₂ d).1 hd
    rwa [hb]
  have hcancels : ∀ d ∈ keptItems m₁ m₂, ∀ d' ∈ keptItems m₁ m₂, cancels d d' = false := by
    intro d hd d' hd'
    simp only [cancels, beq_eq_false_iff_ne.2 (hbefore d hd),
      beq_eq_false_iff_ne.2 (hbefore d' hd'), Bool.and_false, Bool.false_and, Bool.or_false]
  refine List.filter_eq_self.2 fun d hd => ?_
  rw [List.any_eq_false.2 fun d' hd' => Bool.eq_false_iff.1 (hcancels d hd d' hd'), Bool.and_false,
    Bool.not_false]

/-- **No updated and no deleted path** means that the second tree has the values of the first. -/
theorem findUpdatedAndDeleted_size {t₁ t₂ : Node} {dr : DiffResult}
    (h : t₁.findUpdatedAndDeleted t₂ = some dr) :
    dr.size = 0 ↔ ∀ path v, t₁.valueAt path = some v → t₂.valueAt path = some v := by
  have hitems : dr.items = (removeKeyDiffsInListNode (keptItems t₁.ravel t₂.ravel) ++
      (extractComparableMap t₁.ravel t₂.ravel).2.2).insertionSort fun a b => a.key ≤ b.key := by
    rw [Node.findUpdatedAndDeleted, Node.diffSpecificType, findDiffBetweenNodes] at h
    simp only at h
    split_ifs at h
    rw [← Option.some.inj h]
    rfl
  rw [DiffResult.size, hitems, removeKeyDiffs_keptItems, List.length_insertionSort,
    List.length_eq_zero_iff, List.append_eq_nil_iff]
  simp only [← lookup_ravel]
  constructor
  · rintro ⟨hkept, htypes⟩ k v hv
    by_contra hne
    have hdiffer : t₁.ravel.lookup k ≠ t₂.ravel.lookup k := fun heq => hne (heq ▸ hv)
    cases hm : typeMismatch t₁.ravel t₂.ravel k with
    | true =>
        obtain ⟨d, hd, _⟩ := (mem_typeDiffs_key _ _ k).2 hm
        rw [htypes] at hd
        cases hd
    | false =>
        have hd := (mem_keptItems t₁.ravel t₂.ravel ⟨k, t₁.ravel.lookup k, t₂.ravel.lookup k⟩).2
          ⟨hm, hdiffer, by rw [hv]; exact Option.some_ne_none v, rfl, rfl⟩
        rw [hkept] at hd
        cases hd
  · intro hall
    have hsame : ∀ k, t₁.ravel.lookup k ≠ none → t₁.ravel.lookup k = t₂.ravel.lookup k := by
      intro k hne
      obtain ⟨v, hv⟩ := Option.ne_none_iff_exists'.1 hne
      rw [hv, hall k v hv]
    constructor
    · refine List.eq_nil_iff_forall_not_mem.2 fun d hd => ?_
      obtain ⟨_, hne, hsome, _⟩ := (mem_keptItems _ _ d).1 hd
      exact hne (hsame _ hsome)
    · refine List.eq_nil_iff_forall_not_mem.2 fun d hd => ?_
      obtain ⟨hne, hsome, _⟩ := typeMismatch_ne ((mem_typeDiffs_key _ _ d.key).1 ⟨d, hd, rfl⟩)
      exact hne (hsame _ hsome)

end Mapnode
end IntegrityShield
