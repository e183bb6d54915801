/-
# Runs that do not return

A Go function may dereference a nil pointer, and a loop of it may run forever.
`Go α` is the outcome of a call: its value, or the fault that ended it.  A
sequence of calls is a `do` block, and the first fault is the fault of the
whole.
-/

import Mathlib.Tactic.Common

namespace IntegrityShield

/-- Why a call did not return. -/
inductive Fault where
  /-- A nil pointer was dereferenced. -/
  | nilDeref
  /-- A loop never ends. -/
  | diverges
deriving DecidableEq, Repr

/-- The outcome of a call. -/
abbrev Go := Except Fault

namespace Go

/-- Follow a pointer. -/
def deref {α : Type*} : Option α → Go α
  | some a => .ok a
  | none => .error .nilDeref

theorem deref_eq_ok {α : Type*} {x : Option α} {a : α} : deref x = .ok a ↔ x = some a := by
  cases x with
  | none => exact ⟨fun h => (nomatch h), fun h => (nomatch h)⟩
  | some b => simp [deref]

/-- After a call that has returned, a `do` block is its rest. -/
theorem ok_bind {α β : Type} (a : α) (f : α → Go β) : (Except.ok a >>= f : Go β) = f a := by rfl

/-- A `do` block returns exactly when its first call does and the rest does
on the value it gave. -/
theorem bind_eq_ok {α β : Type} {x : Go α} {f : α → Go β} {b : β} :
    (x >>= f) = .ok b ↔ ∃ a, x = .ok a ∧ f a = .ok b := by
  cases x with
  | ok a =>
      constructor
      · exact fun h => ⟨a, rfl, h⟩
      · rintro ⟨a', ha, h⟩
        obtain rfl := Except.ok.inj ha
        exact h
  | error e =>
      constructor
      · exact fun h => nomatch h
      · rintro ⟨_, ha, _⟩
        exact nomatch ha

/-- A `do` block faults when its first call does, or the rest on its value. -/
theorem bind_eq_error {α β : Type} {x : Go α} {f : α → Go β} {e : Fault} :
    (x >>= f) = .error e ↔ x = .error e ∨ ∃ a, x = .ok a ∧ f a = .error e := by
  cases x with
  | ok a =>
      constructor
      · exact fun h => Or.inr ⟨a, rfl, h⟩
      · rintro (h | ⟨a', ha, h⟩)
        · cases h
        · obtain rfl := Except.ok.inj ha
          exact h
  | error e' =>
      constructor
      · exact fun h => Or.inl (congrArg _ (Except.error.inj h))
      · rintro (h | ⟨_, ha, _⟩)
        · exact congrArg _ (Except.error.inj h)
        · cases ha

/-- A call that is known by a part of its result. -/
theorem exists_of_toOption_map {α β : Type} {x : Go α} {f : α → β} {b : β}
    (h : x.toOption.map f = some b) : ∃ a, x = .ok a ∧ f a = b := by
  cases x with
  | error fault => cases h
  | ok a => exact ⟨a, rfl, Option.some.inj h⟩

theorem exists_of_toOption_isSome {α : Type} {x : Go α} (h : x.toOption.isSome = true) :
    ∃ a, x = .ok a := by
  cases x with
  | error fault => cases h
  | ok a => exact ⟨a, rfl⟩

section Loops

variable {α β : Type}

/-- A loop that stops at the first hit, when no call faults. -/
theorem anyM_eq_any {p : α → Go Bool} {f : α → Bool} {l : List α}
    (h : ∀ a ∈ l, p a = .ok (f a)) : l.anyM p = .ok (l.any f) := by
  induction l with
  | nil => rfl
  | cons a rest ih =>
      rw [List.anyM, h a (List.mem_cons_self ..), List.any_cons]
      cases f a with
      | true => rfl
      | false => exact ih fun b hb => h b (List.mem_cons_of_mem _ hb)

/-- A hit of such a loop is a hit of one of its calls. -/
theorem exists_of_anyM {p : α → Go Bool} {l : List α} (h : l.anyM p = .ok true) :
    ∃ a ∈ l, p a = .ok true := by
  induction l with
  | nil => cases h
  | cons a rest ih =>
      rw [List.anyM, bind_eq_ok] at h
      obtain ⟨b, hb, h⟩ := h
      cases b with
      | true => exact ⟨a, List.mem_cons_self .., hb⟩
      | false =>
          obtain ⟨c, hc, hp⟩ := ih h
          exact ⟨c, List.mem_cons_of_mem _ hc, hp⟩

/-- A loop without a hit has made every call. -/
theorem anyM_eq_false_iff {p : α → Go Bool} {l : List α} :
    l.anyM p = .ok false ↔ ∀ a ∈ l, p a = .ok false := by
  constructor
  · intro h
    induction l with
    | nil => exact fun a ha => absurd ha List.not_mem_nil
    | cons c rest ih =>
        rw [List.anyM, bind_eq_ok] at h
        obtain ⟨hit, hc, h⟩ := h
        cases hit with
        | true => cases h
        | false => exact List.forall_mem_cons.2 ⟨hc, ih h⟩
  · intro h
    rw [anyM_eq_any h, List.any_eq_false.2 fun _ _ => Bool.false_ne_true]

/-- Whether such a loop has a hit. -/
theorem anyM_eq_ok {p : α → Go Bool} {l : List α} {b : Bool} (h : l.anyM p = .ok b) :
    b = true ↔ ∃ a ∈ l, p a = .ok true := by
  cases b with
  | true => exact iff_of_true rfl (exists_of_anyM h)
  | false =>
      refine iff_of_false Bool.false_ne_true ?_
      rintro ⟨a, ha, hp⟩
      rw [anyM_eq_false_iff.1 h a ha] at hp
      cases hp

/-- The first hit of a loop, when no call faults. -/
theorem findM_eq_find {p : α → Go Bool} {f : α → Bool} {l : List α}
    (h : ∀ a ∈ l, p a = .ok (f a)) : l.findM? p = .ok (l.find? f) := by
  induction l with
  | nil => rfl
  | cons a rest ih =>
      rw [List.findM?, h a (List.mem_cons_self ..), List.find?_cons]
      cases f a with
      | true => rfl
      | false => exact ih fun b hb => h b (List.mem_cons_of_mem _ hb)

/-- What a search found. -/
theorem findM_eq_some {p : α → Go Bool} {l : List α} {a : α} (h : l.findM? p = .ok (some a)) :
    a ∈ l ∧ p a = .ok true := by
  induction l with
  | nil => cases h
  | cons b rest ih =>
      rw [List.findM?, bind_eq_ok] at h
      obtain ⟨c, hc, h⟩ := h
      cases c with
      | true =>
          obtain rfl := Option.some.inj (Except.ok.inj h)
          exact ⟨List.mem_cons_self .., hc⟩
      | false =>
          obtain ⟨hmem, hp⟩ := ih h
          exact ⟨List.mem_cons_of_mem _ hmem, hp⟩

/-- A search without a hit has made every call. -/
theorem findM_eq_none_iff {p : α → Go Bool} {l : List α} :
    l.findM? p = .ok none ↔ ∀ a ∈ l, p a = .ok false := by
  constructor
  · intro h
    induction l with
    | nil => exact fun a ha => absurd ha List.not_mem_nil
    | cons c rest ih =>
        rw [List.findM?, bind_eq_ok] at h
        obtain ⟨hit, hc, h⟩ := h
        cases hit with
        | true => cases h
        | false => exact List.forall_mem_cons.2 ⟨hc, ih h⟩
  · intro h
    rw [findM_eq_find h, List.find?_eq_none.2 fun _ _ => Bool.false_ne_true]

/-- A search has a hit exactly if some call is one and those before it return. -/
theorem exists_findM_iff {p : α → Go Bool} {l : List α} :
    (∃ a, l.findM? p = .ok (some a)) ↔
      ∃ pre a post, l = pre ++ a :: post ∧ (∀ b ∈ pre, ∃ hit, p b = .ok hit) ∧ p a = .ok true := by
  induction l with
  | nil =>
      refine iff_of_false ?_ ?_
      · rintro ⟨a, h⟩
        cases h
      · rintro ⟨pre, a, post, h, _⟩
        exact absurd h (List.append_ne_nil_of_right_ne_nil pre (List.cons_ne_nil a post)).symm
  | cons c rest ih =>
      rw [List.findM?]
      cases hc : p c with
      | error e =>
          refine iff_of_false ?_ ?_
          · rintro ⟨a, h⟩
            cases h
          · rintro ⟨pre, a, post, h, hpre, ha⟩
            cases pre with
            | nil =>
                obtain ⟨rfl, _⟩ := List.cons.inj h
                rw [hc] at ha
                cases ha
            | cons d pre =>
                obtain ⟨rfl, _⟩ := List.cons.inj h
                obtain ⟨hit, hhit⟩ := hpre c List.mem_cons_self
                rw [hc] at hhit
                cases hhit
      | ok hit =>
          cases hit with
          | true =>
              exact iff_of_true ⟨c, rfl⟩ ⟨[], c, rest, rfl, fun _ h => absurd h List.not_mem_nil, hc⟩
          | false =>
              refine ih.trans ⟨?_, ?_⟩
              · rintro ⟨pre, a, post, rfl, hpre, ha⟩
                refine ⟨c :: pre, a, post, rfl, fun b hb => ?_, ha⟩
                rcases List.mem_cons.1 hb with rfl | hb
                · exact ⟨false, hc⟩
                · exact hpre b hb
              · rintro ⟨pre, a, post, h, hpre, ha⟩
                cases pre with
                | nil =>
                    obtain ⟨rfl, _⟩ := List.cons.inj h
                    rw [hc] at ha
                    cases ha
                | cons d pre =>
                    obtain ⟨_, rfl⟩ := List.cons.inj h
                    exact ⟨pre, a, post, rfl, fun b hb => hpre b (List.mem_cons_of_mem d hb), ha⟩

/-- A loop faults only if one of its calls does. -/
theorem exists_of_anyM_error {p : α → Go Bool} {l : List α} {e : Fault}
    (h : l.anyM p = .error e) : ∃ a ∈ l, p a = .error e := by
  induction l with
  | nil => cases h
  | cons a rest ih =>
      rw [List.anyM] at h
      cases ha : p a with
      | error e' =>
          rw [ha] at h
          obtain rfl := Except.error.inj h
          exact ⟨a, List.mem_cons_self .., ha⟩
      | ok b =>
          rw [ha] at h
          cases b with
          | true => cases h
          | false =>
              obtain ⟨c, hc, hp⟩ := ih h
              exact ⟨c, List.mem_cons_of_mem _ hc, hp⟩

theorem exists_of_findM_error {p : α → Go Bool} {l : List α} {e : Fault}
    (h : l.findM? p = .error e) : ∃ a ∈ l, p a = .error e := by
  induction l with
  | nil => cases h
  | cons a rest ih =>
      rw [List.findM?] at h
      cases ha : p a with
      | error e' =>
          rw [ha] at h
          obtain rfl := Except.error.inj h
          exact ⟨a, List.mem_cons_self .., ha⟩
      | ok b =>
          rw [ha] at h
          cases b with
          | true => cases h
          | false =>
              obtain ⟨c, hc, hp⟩ := ih h
              exact ⟨c, List.mem_cons_of_mem _ hc, hp⟩

/-- A loop without a hit faults at the first call that does. -/
theorem anyM_eq_error {p : α → Go Bool} {l : List α} {e : Fault}
    (h : ∀ a ∈ l, p a = .ok false ∨ p a = .error e) (he : ∃ a ∈ l, p a = .error e) :
    l.anyM p = .error e := by
  induction l with
  | nil =>
      obtain ⟨a, ha, _⟩ := he
      exact absurd ha List.not_mem_nil
  | cons a rest ih =>
      rw [List.anyM]
      rcases h a (List.mem_cons_self ..) with hok | herr
      · rw [hok]
        refine ih (fun b hb => h b (List.mem_cons_of_mem _ hb)) ?_
        obtain ⟨b, hb, hbe⟩ := he
        rcases List.mem_cons.1 hb with rfl | hb
        · rw [hok] at hbe
          cases hbe
        · exact ⟨b, hb, hbe⟩
      · rw [herr]
        rfl

/-- Where such a loop faults. -/
theorem anyM_eq_error_iff {p : α → Go Bool} {l : List α} {e : Fault} :
    l.anyM p = .error e ↔
      ∃ pre a post, l = pre ++ a :: post ∧ (∀ b ∈ pre, p b = .ok false) ∧ p a = .error e := by
  induction l with
  | nil =>
      constructor
      · exact fun h => nomatch h
      · rintro ⟨pre, a, post, h, _⟩
        simp at h
  | cons c rest ih =>
      rw [List.anyM]
      cases hc : p c with
      | error e' =>
          constructor
          · intro h
            obtain rfl := Except.error.inj h
            exact ⟨[], c, rest, rfl, fun _ h => (nomatch h), hc⟩
          · rintro ⟨pre, a, post, h, hpre, ha⟩
            cases pre with
            | nil =>
                obtain ⟨rfl, rfl⟩ := List.cons.inj h
                rw [← hc, ha]
                rfl
            | cons d pre =>
                obtain ⟨rfl, _⟩ := List.cons.inj h
                rw [hpre c List.mem_cons_self] at hc
                cases hc
      | ok hit =>
          cases hit with
          | true =>
              constructor
              · exact fun h => nomatch h
              · rintro ⟨pre, a, post, h, hpre, ha⟩
                cases pre with
                | nil =>
                    obtain ⟨rfl, rfl⟩ := List.cons.inj h
                    rw [ha] at hc
                    cases hc
                | cons d pre =>
                    obtain ⟨rfl, _⟩ := List.cons.inj h
                    rw [hpre c List.mem_cons_self] at hc
                    cases hc
          | false =>
              change rest.anyM p = .error e ↔ _
              rw [ih]
              constructor
              · rintro ⟨pre, a, post, rfl, hpre, ha⟩
                exact ⟨c :: pre, a, post, rfl, List.forall_mem_cons.2 ⟨hc, hpre⟩, ha⟩
              · rintro ⟨pre, a, post, h, hpre, ha⟩
                cases pre with
                | nil =>
                    obtain ⟨rfl, rfl⟩ := List.cons.inj h
                    rw [ha] at hc
                    cases hc
                | cons d pre =>
                    obtain ⟨rfl, rfl⟩ := List.cons.inj h
                    exact ⟨pre, a, post, rfl, (List.forall_mem_cons.1 hpre).2, ha⟩

/-- A search goes on in the second list if there is no hit in the first. -/
theorem findM_append (p : α → Go Bool) (l₁ l₂ : List α) :
    (l₁ ++ l₂).findM? p =
      l₁.findM? p >>= fun found => found.elim (l₂.findM? p) fun a => .ok (some a) := by
  induction l₁ with
  | nil => rfl
  | cons a rest ih =>
      rw [List.cons_append, List.findM?, List.findM?]
      cases p a with
      | error e => rfl
      | ok hit =>
          cases hit with
          | true => rfl
          | false => exact ih

theorem findM_eq_error {p : α → Go Bool} {l : List α} {e : Fault}
    (h : ∀ a ∈ l, p a = .ok false ∨ p a = .error e) (he : ∃ a ∈ l, p a = .error e) :
    l.findM? p = .error e := by
  induction l with
  | nil =>
      obtain ⟨a, ha, _⟩ := he
      exact absurd ha List.not_mem_nil
  | cons a rest ih =>
      rw [List.findM?]
      rcases h a (List.mem_cons_self ..) with hok | herr
      · rw [hok]
        refine ih (fun b hb => h b (List.mem_cons_of_mem _ hb)) ?_
        obtain ⟨b, hb, hbe⟩ := he
        rcases List.mem_cons.1 hb with rfl | hb
        · rw [hok] at hbe
          cases hbe
        · exact ⟨b, hb, hbe⟩
      · rw [herr]
        rfl

/-- A loop whose calls hit at least as often hits at least as often. -/
theorem anyM_mono {p q : α → Go Bool} {l : List α}
    (hpq : ∀ a ∈ l, ∀ b, p a = .ok b → ∃ b', q a = .ok b' ∧ (b = true → b' = true)) {b : Bool}
    (h : l.anyM p = .ok b) : ∃ b', l.anyM q = .ok b' ∧ (b = true → b' = true) := by
  induction l with
  | nil => exact ⟨b, h, id⟩
  | cons a rest ih =>
      rw [List.anyM, bind_eq_ok] at h
      obtain ⟨hit, hp, h⟩ := h
      obtain ⟨hit', hq, himp⟩ := hpq a List.mem_cons_self hit hp
      rw [List.anyM, hq]
      cases hit' with
      | true => exact ⟨true, rfl, fun _ => rfl⟩
      | false =>
          cases hit with
          | true => exact absurd (himp rfl) Bool.false_ne_true
          | false => exact ih (fun c hc => hpq c (List.mem_cons_of_mem _ hc)) h

/-- A search whose calls hit at least as often finds something if it did. -/
theorem findM_mono {p q : α → Go Bool} {l : List α}
    (hpq : ∀ a ∈ l, ∀ b, p a = .ok b → ∃ b', q a = .ok b' ∧ (b = true → b' = true)) {found : α}
    (h : l.findM? p = .ok (some found)) : ∃ found', l.findM? q = .ok (some found') := by
  induction l with
  | nil => cases h
  | cons a rest ih =>
      rw [List.findM?, bind_eq_ok] at h
      obtain ⟨hit, hp, h⟩ := h
      obtain ⟨hit', hq, himp⟩ := hpq a List.mem_cons_self hit hp
      rw [List.findM?, hq]
      cases hit' with
      | true => exact ⟨a, rfl⟩
      | false =>
          cases hit with
          | true => exact absurd (himp rfl) Bool.false_ne_true
          | false => exact ih (fun c hc => hpq c (List.mem_cons_of_mem _ hc)) h

/-- What every call of a loop keeps, the loop keeps. -/
theorem foldlM_invariant {step : β → α → Go β} (inv : β → Prop)
    (hstep : ∀ s a s', inv s → step s a = .ok s' → inv s') {l : List α} {s s' : β} (hs : inv s)
    (h : l.foldlM step s = .ok s') : inv s' := by
  induction l generalizing s with
  | nil =>
      obtain rfl := Except.ok.inj h
      exact hs
  | cons a rest ih =>
      rw [List.foldlM_cons, bind_eq_ok] at h
      obtain ⟨t, ht, h⟩ := h
      exact ih (hstep s a t hs ht) h

/-- A loop of calls faults only if one of the calls does. -/
theorem exists_of_foldlM_error {step : β → α → Go β} {l : List α} {s : β} {e : Fault}
    (h : l.foldlM step s = .error e) : ∃ a ∈ l, ∃ s', step s' a = .error e := by
  induction l generalizing s with
  | nil => cases h
  | cons a rest ih =>
      rw [List.foldlM_cons] at h
      cases ha : step s a with
      | error e' =>
          rw [ha] at h
          obtain rfl := Except.error.inj h
          exact ⟨a, List.mem_cons_self .., s, ha⟩
      | ok s' =>
          rw [ha] at h
          obtain ⟨b, hb, hs⟩ := ih h
          exact ⟨b, List.mem_cons_of_mem _ hb, hs⟩

/-- A call that faults in every state makes the loop fault. -/
theorem foldlM_eq_error {step : β → α → Go β} {l : List α} {e : Fault}
    (honly : ∀ s a e', step s a = .error e' → e' = e)
    (h : ∃ a ∈ l, ∀ s, step s a = .error e) (s : β) : l.foldlM step s = .error e := by
  induction l generalizing s with
  | nil =>
      obtain ⟨a, ha, _⟩ := h
      exact absurd ha List.not_mem_nil
  | cons a rest ih =>
      rw [List.foldlM_cons]
      cases hs : step s a with
      | error e' =>
          obtain rfl := honly s a e' hs
          rfl
      | ok s' =>
          refine ih ?_ s'
          obtain ⟨b, hb, hbe⟩ := h
          rcases List.mem_cons.1 hb with rfl | hb
          · rw [hbe s] at hs
            cases hs
          · exact ⟨b, hb, hbe⟩

/-- The elements a loop keeps. -/
def filter (p : α → Go Bool) : List α → Go (List α)
  | [] => .ok []
  | a :: rest => do
      let keep ← p a
      let kept ← filter p rest
      return if keep then a :: kept else kept

theorem filter_eq_filter {p : α → Go Bool} {f : α → Bool} {l : List α}
    (h : ∀ a ∈ l, p a = .ok (f a)) : filter p l = .ok (l.filter f) := by
  induction l with
  | nil => rfl
  | cons a rest ih =>
      rw [filter, h a (List.mem_cons_self ..), ih fun b hb => h b (List.mem_cons_of_mem _ hb)]
      cases hf : f a with
      | true => rw [List.filter_cons_of_pos hf]; rfl
      | false => rw [List.filter_cons_of_neg (by simp [hf])]; rfl

end Loops

end Go
end IntegrityShield
