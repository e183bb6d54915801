/-
# Finite maps written entry by entry

A Go map is a Mathlib `AList`: a list of entries with distinct keys, in the
order in which `range` visits them.  `m[k] = v` is `AList.insert`, and
`reflect.DeepEqual` of two maps of comparable values asks for the same entries
in any order.  A map filled by a loop of assignments holds at each key what
was written there last (`lookup_writes`).
-/

import Mathlib.Data.Finmap
import Mathlib.Tactic.Common

namespace IntegrityShield

variable {κ : Type*} {α : Type*} [DecidableEq κ]

/-- A Go map. -/
abbrev GoMap (κ α : Type*) := AList fun _ : κ => α

namespace GoMap

/-- A loop of assignments. -/
def writes (m : GoMap κ α) (l : List (κ × α)) : GoMap κ α :=
  l.foldl (fun m kv => m.insert kv.1 kv.2) m

/-- What a list of assignments leaves at a key. -/
def lastAt (l : List (κ × α)) (k : κ) : Option α :=
  l.foldl (fun acc kv => if kv.1 = k then some kv.2 else acc) none

@[simp] theorem writes_nil (m : GoMap κ α) : writes m [] = m := rfl

@[simp] theorem writes_cons (m : GoMap κ α) (kv : κ × α) (l : List (κ × α)) :
    writes m (kv :: l) = writes (m.insert kv.1 kv.2) l := rfl

theorem writes_append (m : GoMap κ α) (l₁ l₂ : List (κ × α)) :
    writes m (l₁ ++ l₂) = writes (writes m l₁) l₂ :=
  List.foldl_append ..

/-- The last of the assignments to a key is that of the later ones, if there is one. -/
theorem foldl_eq_lastAt (l : List (κ × α)) (k : κ) (acc : Option α) :
    l.foldl (fun acc kv => if kv.1 = k then some kv.2 else acc) acc = (lastAt l k).or acc := by
  have hstep : ∀ (l : List (κ × α)) (acc : Option α),
      l.foldl (fun acc kv => if kv.1 = k then some kv.2 else acc) acc =
        (l.foldl (fun acc kv => if kv.1 = k then some kv.2 else acc) none).or acc := by
    intro l
    induction l with
    | nil => exact fun acc => rfl
    | cons kv rest ih =>
        intro acc
        rw [List.foldl_cons, List.foldl_cons, ih, ih (if kv.1 = k then some kv.2 else none)]
        by_cases h : kv.1 = k <;> simp [h]
  exact hstep l acc

theorem lastAt_cons (kv : κ × α) (l : List (κ × α)) (k : κ) :
    lastAt (kv :: l) k = (lastAt l k).or (if kv.1 = k then some kv.2 else none) := by
  rw [lastAt, List.foldl_cons, foldl_eq_lastAt]

theorem lastAt_append (l₁ l₂ : List (κ × α)) (k : κ) :
    lastAt (l₁ ++ l₂) k = (lastAt l₂ k).or (lastAt l₁ k) := by
  rw [lastAt, List.foldl_append, foldl_eq_lastAt, ← lastAt]

/-- The loop changes a key exactly as the assignments to it say. -/
theorem lookup_writes_from (l : List (κ × α)) (m : GoMap κ α) (k : κ) :
    (writes m l).lookup k = (lastAt l k).or (m.lookup k) := by
  induction l generalizing m with
  | nil => rfl
  | cons kv rest ih =>
      rw [writes_cons, ih, lastAt_cons]
      by_cases h : kv.1 = k
      · rw [if_pos h, ← h, AList.lookup_insert, Option.or_assoc]
        rfl
      · rw [if_neg h, AList.lookup_insert_ne (Ne.symm h), Option.or_none]

/-- **The last write wins.** -/
theorem lookup_writes (l : List (κ × α)) (k : κ) :
    (writes (∅ : GoMap κ α) l).lookup k = lastAt l k := by
  rw [lookup_writes_from, AList.lookup_empty, Option.or_none]

/-- What a loop of assignments leaves at a key is one of the assigned values. -/
theorem mem_of_lastAt {l : List (κ × α)} {k : κ} {v : α} (h : lastAt l k = some v) :
    (k, v) ∈ l := by
  induction l with
  | nil => cases h
  | cons kv rest ih =>
      rw [lastAt_cons, Option.or_eq_some_iff] at h
      rcases h with h | ⟨_, h⟩
      · exact List.mem_cons_of_mem _ (ih h)
      · split at h
        · rename_i hk
          obtain rfl := Option.some.inj h
          exact hk ▸ List.mem_cons_self ..
        · cases h

/-- A key that was assigned has a value. -/
theorem lastAt_ne_none {l : List (κ × α)} {k : κ} {v : α} (h : (k, v) ∈ l) :
    lastAt l k ≠ none := by
  induction l with
  | nil => exact absurd h List.not_mem_nil
  | cons kv rest ih =>
      rw [lastAt_cons, ne_eq, Option.or_eq_none_iff, not_and]
      intro hrest
      rcases List.mem_cons.1 h with rfl | h
      · rw [if_pos rfl]
        exact Option.some_ne_none v
      · exact absurd hrest (ih h)

/-- A key that nothing is assigned to. -/
theorem lastAt_eq_none_iff {l : List (κ × α)} {k : κ} :
    lastAt l k = none ↔ k ∉ l.map Prod.fst := by
  constructor
  · intro h hmem
    obtain ⟨kv, hkv, rfl⟩ := List.mem_map.1 hmem
    exact lastAt_ne_none hkv h
  · intro h
    by_contra hsome
    obtain ⟨v, hv⟩ := Option.ne_none_iff_exists'.1 hsome
    exact h (List.mem_map_of_mem (mem_of_lastAt hv))

/-- The keys that a loop of assignments leaves. -/
theorem mem_writes {l : List (κ × α)} {k : κ} :
    k ∈ writes (∅ : GoMap κ α) l ↔ k ∈ l.map Prod.fst := by
  rw [← AList.lookup_isSome, lookup_writes, Option.isSome_iff_ne_none, ne_eq, lastAt_eq_none_iff,
    not_not]

/-- It is the value of the last assignment to the key. -/
theorem lastAt_eq_some_iff {l : List (κ × α)} {k : κ} {v : α} :
    lastAt l k = some v ↔ ∃ pre post, l = pre ++ (k, v) :: post ∧ ∀ kv ∈ post, kv.1 ≠ k := by
  constructor
  · intro h
    induction l with
    | nil => cases h
    | cons kv rest ih =>
        rw [lastAt_cons, Option.or_eq_some_iff] at h
        rcases h with h | ⟨hnone, h⟩
        · obtain ⟨pre, post, rfl, hpost⟩ := ih h
          exact ⟨kv :: pre, post, rfl, hpost⟩
        · split_ifs at h with hk
          obtain rfl := Option.some.inj h
          subst hk
          exact ⟨[], rest, rfl, fun kv' hkv' heq =>
            lastAt_eq_none_iff.1 hnone (List.mem_map.2 ⟨kv', hkv', heq⟩)⟩
  · rintro ⟨pre, post, rfl, hpost⟩
    have hnone : lastAt post k = none := by
      rw [lastAt_eq_none_iff, List.mem_map]
      exact fun ⟨kv, hkv, heq⟩ => hpost kv hkv heq
    rw [lastAt_append, lastAt_cons, hnone, Option.none_or, if_pos rfl, Option.some_or]

/-- Assigning the entries of a function at some keys. -/
theorem lastAt_filterMap (f : κ → Option α) (keys : List κ) (k : κ) :
    lastAt (keys.filterMap fun k => (f k).map (k, ·)) k = if k ∈ keys then f k else none := by
  induction keys with
  | nil => rfl
  | cons x rest ih =>
      by_cases hx : x = k
      · subst hx
        cases hf : f x with
        | none => simp [hf, ih]
        | some v =>
            have hrest : ∀ p : Prop, [Decidable p] → (if p then some v else none).getD v = v := by
              intro p _
              split <;> rfl
            simp [hf, ih, lastAt_cons, hrest]
      · have hk : k ∈ x :: rest ↔ k ∈ rest := by simp [Ne.symm hx]
        cases hf : f x with
        | none => simp [hf, ih, hk]
        | some v => simp [hf, ih, hk, hx, lastAt_cons]

/-- Assigning the entries of a map whose keys meet a condition. -/
theorem lastAt_filter_entries (m : GoMap κ α) (p : κ → Bool) (k : κ) :
    lastAt ((m.entries.filter fun e => p e.1).map fun e => (e.1, e.2)) k =
      if p k then m.lookup k else none := by
  have hlist : ∀ entries : List (Sigma fun _ : κ => α), entries.NodupKeys →
      lastAt ((entries.filter fun e => p e.1).map fun e => (e.1, e.2)) k =
        if p k then entries.dlookup k else none := by
    intro entries hnodup
    induction entries with
    | nil => simp [lastAt]
    | cons e rest ih =>
        obtain ⟨hfresh, hrest⟩ := List.nodupKeys_cons.1 hnodup
        have ih := ih hrest
        by_cases he : e.1 = k
        · subst he
          rw [List.dlookup_eq_none.2 hfresh, ite_self] at ih
          rw [List.dlookup_cons_eq, List.filter_cons]
          split
          · rw [List.map_cons, lastAt_cons, ih, if_pos rfl]
            rfl
          · exact ih
        · rw [List.dlookup_cons_ne _ _ (Ne.symm he), ← ih, List.filter_cons]
          split
          · rw [List.map_cons, lastAt_cons, if_neg he, Option.or_none]
          · rfl
  exact hlist m.entries m.nodupKeys

/-- Assigning the entries of a map. -/
theorem lastAt_entries (m : GoMap κ α) (k : κ) :
    lastAt (m.entries.map fun e => (e.1, e.2)) k = m.lookup k := by
  have h := lastAt_filter_entries m (fun _ => true) k
  rwa [List.filter_true, if_pos rfl] at h

variable [DecidableEq α]

/-- `reflect.DeepEqual`. -/
def deepEqual (m₁ m₂ : GoMap κ α) : Bool := decide (m₁.entries.Perm m₂.entries)

/-- Two maps are deeply equal when they agree at every key. -/
theorem deepEqual_iff (m₁ m₂ : GoMap κ α) :
    deepEqual m₁ m₂ = true ↔ ∀ k, m₁.lookup k = m₂.lookup k := by
  rw [deepEqual, decide_eq_true_iff]
  constructor
  · exact fun h k => AList.perm_lookup h
  · intro h
    refine List.lookup_ext m₁.nodupKeys m₂.nodupKeys fun k v => ?_
    have hk : m₁.entries.dlookup k = m₂.entries.dlookup k := h k
    rw [hk]

end GoMap
end IntegrityShield
