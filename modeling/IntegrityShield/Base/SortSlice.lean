/-
# Sorting with an order of one's own

`sort.Slice` orders a slice by a comparison that it is given.  It is not stable: of elements that
the comparison does not tell apart, any may come first.  So a sort is any function that permutes
its argument and, if the comparison is a strict weak order, leaves no element before a lesser one
(`SortSlice`); what holds for every such function does not depend on how ties are broken.

Sorting by a key, largest first, is the case that is used: the first element that a search stops at
has the largest key of all it would stop at (`key_le_of_first`), and for any choice of preferred
elements there is a sort that puts them first among equals (`preferring`).
-/

import Mathlib.Data.List.Sort
import Mathlib.Tactic.Common

namespace IntegrityShield

variable {α κ : Type}

/-- `sort.Slice` at a type. -/
class SortSlice (α : Type) where
  sortSlice : (α → α → Bool) → List α → List α
  perm : ∀ less l, (sortSlice less l).Perm l
  sorted : ∀ less, IsStrictWeakOrder α (less · · = true) → ∀ l,
    (sortSlice less l).Pairwise fun a b => less b a = false

namespace SortSlice

/-- Not to be greater, for a strict weak order, is transitive. -/
theorem not_less_trans {less : α → α → Bool} (h : IsStrictWeakOrder α (less · · = true))
    {a b c : α} (hab : less b a = false) (hbc : less c b = false) : less c a = false := by
  by_contra hca
  rw [Bool.not_eq_false] at hca
  rw [← Bool.not_eq_true] at hab hbc
  by_cases hba : less a b = true
  · exact hbc (h.trans _ _ _ hca hba)
  by_cases hcb : less b c = true
  · exact hab (h.trans _ _ _ hcb hca)
  · exact (h.incomp_trans c b a ⟨hbc, hcb⟩ ⟨hab, hba⟩).1 hca

/-- Elements that the comparison does not tell apart are ordered by whether they are preferred. -/
def preferredLe (less : α → α → Bool) (p : α → Bool) (a b : α) : Bool :=
  less a b || (!less b a && (p a || !p b))

section Preferred

variable {less : α → α → Bool} (h : IsStrictWeakOrder α (less · · = true)) (p : α → Bool)
include h

theorem not_less_of_preferredLe {a b : α} (hab : preferredLe less p a b = true) :
    less b a = false := by
  rw [preferredLe, Bool.or_eq_true, Bool.and_eq_true, Bool.not_eq_true'] at hab
  rcases hab with hlt | ⟨hnot, _⟩
  · rw [← Bool.not_eq_true]
    exact fun hgt => h.irrefl a (h.trans _ _ _ hlt hgt)
  · exact hnot

theorem preferredLe_trans {a b c : α} (hab : preferredLe less p a b = true)
    (hbc : preferredLe less p b c = true) : preferredLe less p a c = true := by
  have hca := not_less_trans h (not_less_of_preferredLe h p hab) (not_less_of_preferredLe h p hbc)
  cases hac : less a c with
  | true => rw [preferredLe, hac, Bool.true_or]
  | false =>
      -- nothing tells `a` and `c` apart, so nothing told either from `b`
      have hltab : less a b = false := not_less_trans h (not_less_of_preferredLe h p hbc) hac
      have hltbc : less b c = false := not_less_trans h hac (not_less_of_preferredLe h p hab)
      simp only [preferredLe, hltab, hltbc, hac, hca, Bool.false_or, Bool.and_eq_true,
        Bool.or_eq_true, Bool.not_eq_true'] at hab hbc ⊢
      refine ⟨trivial, ?_⟩
      rcases hab.2 with ha | hb
      · exact .inl ha
      · rcases hbc.2 with hb' | hc
        · rw [hb] at hb'
          cases hb'
        · exact .inr hc

omit h in
theorem preferredLe_total (a b : α) :
    (preferredLe less p a b || preferredLe less p b a) = true := by
  unfold preferredLe
  cases less a b <;> cases less b a <;> cases p a <;> cases p b <;> rfl

theorem pairwise_mergeSort_preferredLe (l : List α) :
    (l.mergeSort (preferredLe less p)).Pairwise fun a b => preferredLe less p a b = true :=
  List.pairwise_mergeSort (fun a b c => preferredLe_trans h p (a := a) (b := b) (c := c))
    (preferredLe_total p) l

end Preferred

/-- The sort that puts the preferred elements first among those it cannot tell apart. -/
@[reducible] def preferring (p : α → Bool) : SortSlice α where
  sortSlice less l := l.mergeSort (preferredLe less p)
  perm _ l := List.mergeSort_perm l _
  sorted _ h l := (pairwise_mergeSort_preferredLe h p l).imp (not_less_of_preferredLe h p)

/-! ### Largest key first -/

section Key

variable [LinearOrder κ] (key : α → κ)

/-- The comparison of a sort by a key, largest first. -/
def byKey (a b : α) : Bool := decide (key b < key a)

theorem isStrictWeakOrder_byKey : IsStrictWeakOrder α (byKey key · · = true) where
  irrefl a := by simp [byKey]
  trans a b c := by
    simp only [byKey, decide_eq_true_eq]
    exact fun hab hbc => hbc.trans hab
  incomp_trans a b c := by
    simp only [byKey, decide_eq_true_eq, not_lt]
    exact fun hab hbc => ⟨hab.1.trans hbc.1, hbc.2.trans hab.2⟩

/-- **The first element has the largest key of those that are not before it.** -/
theorem key_le_of_first [SortSlice α] {l pre post : List α} {a b : α}
    (hsplit : sortSlice (byKey key) l = pre ++ a :: post) (hb : b ∈ l) (hpre : b ∉ pre) :
    key b ≤ key a := by
  have hsorted := sorted (byKey key) (isStrictWeakOrder_byKey key) l
  rw [hsplit, List.pairwise_append, List.pairwise_cons] at hsorted
  have hmem : b ∈ pre ++ a :: post := hsplit ▸ (perm (byKey key) l).mem_iff.2 hb
  rcases List.mem_append.1 hmem with hb | hb
  · exact absurd hb hpre
  rcases List.mem_cons.1 hb with rfl | hb
  · exact le_refl _
  · simpa [byKey] using hsorted.2.1.1 b hb

/-- With preferred elements, those before a preferred one have a larger key or are preferred. -/
theorem lt_key_or_of_before {p : α → Bool} {l pre post : List α} {a b : α}
    (hsplit : (preferring p).sortSlice (byKey key) l = pre ++ a :: post) (ha : p a = true)
    (hb : b ∈ pre) : key a < key b ∨ p b = true := by
  have hsorted := pairwise_mergeSort_preferredLe (isStrictWeakOrder_byKey key) p l
  rw [show l.mergeSort _ = _ from hsplit, List.pairwise_append] at hsorted
  have hle := hsorted.2.2 b hb a List.mem_cons_self
  simp only [preferredLe, byKey, ha, Bool.not_true, Bool.or_false, Bool.or_eq_true,
    Bool.and_eq_true, decide_eq_true_eq] at hle
  exact hle.imp_right And.right

end Key

end SortSlice

end IntegrityShield
