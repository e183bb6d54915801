/-
# Taking out what a text expression finds

`ReplaceAllString` with an empty replacement takes the matches of an expression out of a text, from
left to right.  A backtracking matcher promises no more about a match than its place in an order of
preference.  For an expression of literal characters, dots and `.*` the preferred match is the one
that ends furthest to the right (`head_run_glyphs`): a match that begins further right on the same
line can be made to end at least as far right (`exists_ends_le`).  With a `.*` in it, a match can
also be made to end where any match ends that begins further right on the line (`ends_append`).

So what is left of a text needs no matcher to say: where no match reads anything the text is
unchanged (`replaceFrom_untouched`), a match goes from the first place where one reads something
to its furthest end (`replaceFrom_cut`), and a text with such a place gets shorter
(`length_replaceFrom_lt`).  On one line there is nothing to find after a match that begins the
text, and a match that ends it can be extended to the left until no match begins before it.
-/

import IntegrityShield.Base.RegexpText

namespace IntegrityShield
namespace Regexp

/-- A match at the beginning of `r` leaves `z`. -/
def Ends (gs : List Glyph) (r z : List Char) : Prop := ∃ w, r = w ++ z ∧ Matches gs w

section Ends

variable {g : Glyph} {gs : List Glyph} {x y r z : List Char}

theorem Ends.suffix (h : Ends gs r z) : z <:+ r := by
  obtain ⟨w, rfl, _⟩ := h
  exact List.suffix_append w z

theorem ends_nil : Ends [] r z ↔ r = z :=
  ⟨fun ⟨_, hr, hw⟩ => by rw [hr, hw, List.nil_append], fun h => ⟨[], h, rfl⟩⟩

theorem ends_cons : Ends (g :: gs) r z ↔ ∃ u r', r = u ++ r' ∧ g.Reads u ∧ Ends gs r' z := by
  constructor
  · rintro ⟨_, rfl, u, v, rfl, hu, hv⟩
    exact ⟨u, v ++ z, List.append_assoc u v z, hu, v, rfl, hv⟩
  · rintro ⟨u, _, rfl, hu, v, rfl, hv⟩
    exact ⟨u ++ v, (List.append_assoc u v z).symm, u, v, rfl, hu, hv⟩

theorem ends_dots_nil : Ends (.dots :: gs) [] z ↔ Ends gs [] z := by
  rw [ends_cons]
  constructor
  · rintro ⟨u, r', hr, _, h⟩
    rwa [(List.append_eq_nil_iff.1 hr.symm).2] at h
  · exact fun h => ⟨[], [], rfl, List.not_mem_nil, h⟩

theorem ends_dots_cons {c : Char} :
    Ends (.dots :: gs) (c :: r) z ↔ c ≠ '\n' ∧ Ends (.dots :: gs) r z ∨ Ends gs (c :: r) z := by
  simp only [ends_cons (g := .dots)]
  constructor
  · rintro ⟨u, r', hr, hu, h⟩
    cases u with
    | nil => exact Or.inr (hr ▸ h)
    | cons d u =>
        obtain ⟨rfl, rfl⟩ := List.cons.inj hr
        exact Or.inl ⟨fun hc => hu (hc ▸ List.mem_cons_self), u, r', rfl,
          fun hn => hu (List.mem_cons_of_mem c hn), h⟩
  · rintro (⟨hc, u, r', rfl, hu, h⟩ | h)
    · exact ⟨c :: u, r', rfl, List.not_mem_cons_of_ne_of_not_mem (Ne.symm hc) hu, h⟩
    · exact ⟨[], c :: r, rfl, List.not_mem_nil, h⟩

/-- An element that reads one character, from two places of a line: what it leaves on the left
still has what it leaves on the right behind a part of the line. -/
theorem Glyph.Reads.shift {u u' r' : List Char} (hg : g ≠ .dots) (hx : '\n' ∉ x) (hu' : g.Reads u')
    (hu : g.Reads u) (h : x ++ (u ++ r) = u' ++ r') : ∃ x', '\n' ∉ x' ∧ r' = x' ++ r := by
  obtain ⟨d, d', rfl, rfl, hd⟩ : ∃ d d', u = [d] ∧ u' = [d'] ∧ (d = '\n' → d' = '\n') := by
    cases g with
    | char c => exact ⟨c, c, hu, hu', id⟩
    | dot =>
        obtain ⟨d, rfl, hd⟩ := hu
        obtain ⟨d', rfl, _⟩ := hu'
        exact ⟨d, d', rfl, rfl, fun h => absurd h hd⟩
    | dots => exact absurd rfl hg
  cases x with
  | nil => exact ⟨[], List.not_mem_nil, (List.cons.inj h).2.symm⟩
  | cons e x =>
      obtain ⟨rfl, rfl⟩ := List.cons.inj h
      obtain ⟨he, hx⟩ := not_or.1 (mt List.mem_cons.2 hx)
      refine ⟨x ++ [d], ?_, by simp⟩
      rw [List.mem_append, List.mem_singleton]
      exact fun hn => hn.elim hx fun hn => he (hd hn.symm).symm

/-- **A match further right on the line ends as far right.** -/
theorem exists_ends_le {z' : List Char} (hx : '\n' ∉ x) (h' : Ends gs (x ++ y) z')
    (h : Ends gs y z) : ∃ z₂, Ends gs y z₂ ∧ z₂.length ≤ z'.length := by
  induction gs generalizing x y with
  | nil =>
      refine ⟨z, h, ?_⟩
      rw [← ends_nil.1 h, ← ends_nil.1 h', List.length_append]
      omega
  | cons g gs ih =>
      obtain ⟨u', r', hr', hu', hleft⟩ := ends_cons.1 h'
      obtain ⟨u, r, rfl, hu, hright⟩ := ends_cons.1 h
      by_cases hg : g = .dots
      · subst hg
        rcases List.append_eq_append_iff.1 hr' with ⟨t, rfl, hr⟩ | ⟨t, rfl, rfl⟩
        · -- the left match is still in its dots where the right one begins
          refine ⟨z', ends_cons.2 ⟨t, r', hr, fun hn => hu' (List.mem_append_right x hn), hleft⟩,
            Nat.le_refl _⟩
        · have hx' : '\n' ∉ t ++ u := by
            rw [List.mem_append]
            exact fun hn => hn.elim (fun hn => hx (List.mem_append_right u' hn)) hu
          rw [← List.append_assoc] at hleft
          obtain ⟨z₂, h₂, hle⟩ := ih hx' hleft hright
          exact ⟨z₂, ends_cons.2 ⟨u, r, rfl, hu, h₂⟩, hle⟩
      · obtain ⟨x', hx', rfl⟩ := hu'.shift hg hx hu hr'
        obtain ⟨z₂, h₂, hle⟩ := ih hx' hleft hright
        exact ⟨z₂, ends_cons.2 ⟨u, r, rfl, hu, h₂⟩, hle⟩

/-- **With a `.*`, a match also ends where one further right on the line does.** -/
theorem ends_append {z' : List Char} (hdots : .dots ∈ gs) (hx : '\n' ∉ x)
    (h' : Ends gs (x ++ y) z') (h : Ends gs y z) : Ends gs (x ++ y) z := by
  induction gs generalizing x y with
  | nil => exact absurd hdots List.not_mem_nil
  | cons g gs ih =>
      obtain ⟨u', r', hr', hu', hleft⟩ := ends_cons.1 h'
      obtain ⟨u, r, rfl, hu, hright⟩ := ends_cons.1 h
      by_cases hg : g = .dots
      · subst hg
        refine ends_cons.2 ⟨x ++ u, r, (List.append_assoc x u r).symm, ?_, hright⟩
        intro hn
        exact (List.mem_append.1 hn).elim hx hu
      · obtain ⟨x', hx', rfl⟩ := hu'.shift hg hx hu hr'
        exact ends_cons.2 ⟨u', x' ++ r, hr', hu',
          ih ((List.mem_cons.1 hdots).resolve_left (Ne.symm hg)) hx' hleft hright⟩

end Ends

/-! ## The preferred match -/

section Preferred

variable {gs : List Glyph} {b r : List Char} {e : Pos}

theorem ends_of_mem_run (h : e ∈ (glyphsRe gs).run (b, r)) : Ends gs r e.2 := by
  obtain ⟨w, r', rfl, hw, rfl⟩ := mem_run_glyphs.1 h
  exact ⟨w, rfl, hw⟩

theorem run_eq_nil_iff : (glyphsRe gs).run (b, r) = [] ↔ ∀ z, ¬Ends gs r z := by
  rw [List.eq_nil_iff_forall_not_mem]
  constructor
  · rintro h z ⟨w, rfl, hw⟩
    exact h _ (mem_run_glyphs.2 ⟨w, z, rfl, hw, rfl⟩)
  · exact fun h e he => h e.2 (ends_of_mem_run he)

theorem run_dots_nil : (glyphsRe (.dots :: gs)).run (b, []) = (glyphsRe gs).run (b, []) := by
  simp [glyphsRe, Glyph.re, Re.star, Re.run, times, upTo]

/-- The dots try the character first, and stop before it last. -/
theorem run_dots_cons (c : Char) :
    (glyphsRe (.dots :: gs)).run (b, c :: r) =
      (if c = '\n' then [] else (glyphsRe (.dots :: gs)).run (c :: b, r)) ++
        (glyphsRe gs).run (b, c :: r) := by
  have hrun : ∀ b r, (glyphsRe (.dots :: gs)).run (b, r) =
      (upTo (Re.char (· != '\n')).run true r.length (b, r)).flatMap (glyphsRe gs).run := by
    intro b r
    simp only [glyphsRe, List.foldr_cons, Glyph.re, Re.star, Re.run, times, List.flatMap_singleton,
      Option.map_none, Option.getD_none]
  rw [hrun, hrun, List.length_cons, upTo, if_pos rfl, List.flatMap_append, List.flatMap_singleton,
    Re.run]
  by_cases hc : c = '\n'
  · simp [hc]
  · simp [hc]

/-- **The preferred match ends furthest to the right.** -/
theorem head_run_glyphs (h : ((glyphsRe gs).run (b, r)).head? = some e) {z : List Char}
    (hz : Ends gs r z) : e.2.length ≤ z.length := by
  induction gs generalizing b r z with
  | nil =>
      have hend : r = e.2 := ends_nil.1 (ends_of_mem_run (List.mem_of_mem_head? h))
      exact Nat.le_of_eq (congrArg List.length (hend.symm.trans (ends_nil.1 hz)))
  | cons g gs ih =>
      by_cases hg : g = .dots
      · subst hg
        induction r generalizing b z with
        | nil => exact ih (run_dots_nil ▸ h) (ends_dots_nil.1 hz)
        | cons c r ihr =>
            rw [run_dots_cons, List.head?_append, Option.or_eq_some_iff] at h
            rcases h with h | ⟨hnone, h⟩
            · -- some match goes on past the character
              have hc : c ≠ '\n' := by
                intro hc
                rw [if_pos hc] at h
                cases h
              rw [if_neg hc] at h
              have he := ends_of_mem_run (List.mem_of_mem_head? h)
              have hline : '\n' ∉ [c] := fun hn => hc (List.mem_singleton.1 hn).symm
              obtain ⟨z₂, h₂, hle⟩ := exists_ends_le (x := [c]) hline hz he
              exact Nat.le_trans (ihr h h₂) hle
            · rcases ends_dots_cons.1 hz with ⟨hc, hz⟩ | hz
              · rw [if_neg hc, List.head?_eq_none_iff, run_eq_nil_iff] at hnone
                exact absurd hz (hnone z)
              · exact ih h hz
      · -- the element reads one character, or nothing matches
        obtain ⟨u, r', rfl, hu, hz⟩ := ends_cons.1 hz
        rw [glyphsRe, List.foldr_cons, Re.run, ← glyphsRe] at h
        have hrun : g.re.run (b, u ++ r') = [(u.reverse ++ b, r')] := by
          cases g with
          | char c =>
              rw [show u = [c] from hu]
              simp [Glyph.re, Re.run]
          | dot =>
              obtain ⟨d, rfl, hd⟩ := hu
              simp [Glyph.re, Re.run, hd]
          | dots => exact absurd rfl hg
        rw [hrun, List.flatMap_singleton] at h
        exact ih h hz

/-- Where a match begins there is one that ends furthest to the right. -/
theorem exists_furthest {z : List Char} (hz : Ends gs r z) :
    ∃ z₁, Ends gs r z₁ ∧ ∀ z', Ends gs r z' → z₁.length ≤ z'.length := by
  cases hrun : ((glyphsRe gs).run ([], r)).head? with
  | none =>
      rw [List.head?_eq_none_iff, run_eq_nil_iff] at hrun
      exact absurd hz (hrun z)
  | some e =>
      exact ⟨e.2, ends_of_mem_run (List.mem_of_mem_head? hrun), fun z' => head_run_glyphs hrun⟩

end Preferred

/-! ## Taking matches out -/

/-- Some match at the beginning of the text reads something. -/
def Reading (gs : List Glyph) (r : List Char) : Prop := ∃ z, Ends gs r z ∧ z.length < r.length

theorem Ends.reading {gs : List Glyph} {r z : List Char} (h : Ends gs r z)
    (hempty : ¬Matches gs []) : Reading gs r := by
  obtain ⟨w, rfl, hw⟩ := h
  refine ⟨z, ⟨w, rfl, hw⟩, ?_⟩
  have hne : w ≠ [] := fun hnil => hempty (hnil ▸ hw)
  have := List.length_pos_of_ne_nil hne
  rw [List.length_append]
  omega

section Replace

variable {gs : List Glyph} {b r : List Char} {fuel : ℕ} {fresh : Bool}

theorem replaceFrom_nil : (glyphsRe gs).replaceFrom [] fuel fresh (b, []) = [] := by
  cases fuel with
  | zero => rfl
  | succ fuel =>
      rw [Re.replaceFrom]
      split
      · rfl
      · simp

theorem replaceFrom_of_not_reading {c : Char} (h : ¬Reading gs (c :: r)) :
    (glyphsRe gs).replaceFrom [] (fuel + 1) fresh (b, c :: r) =
      c :: (glyphsRe gs).replaceFrom [] fuel true (c :: b, r) := by
  rw [Re.replaceFrom]
  split
  · rfl
  · rename_i e he
    have hnot : ¬e.2.length < (c :: r).length :=
      fun hlt => h ⟨e.2, ends_of_mem_run (List.mem_of_mem_head? he), hlt⟩
    rw [if_neg hnot]
    simp

theorem replaceFrom_of_reading (fuel : ℕ) (fresh : Bool) (b : List Char) (h : Reading gs r) :
    ∃ e, (glyphsRe gs).replaceFrom [] (fuel + 1) fresh (b, r) =
        (glyphsRe gs).replaceFrom [] fuel false e ∧
      Ends gs r e.2 ∧ (∀ z, Ends gs r z → e.2.length ≤ z.length) ∧ e.2.length < r.length := by
  obtain ⟨z, hz, hlt⟩ := h
  cases hrun : ((glyphsRe gs).run (b, r)).head? with
  | none =>
      rw [List.head?_eq_none_iff, run_eq_nil_iff] at hrun
      exact absurd hz (hrun z)
  | some e =>
      have hle := head_run_glyphs hrun hz
      refine ⟨e, ?_, ends_of_mem_run (List.mem_of_mem_head? hrun), fun z => head_run_glyphs hrun,
        by omega⟩
      have hshorter : e.2.length < r.length := by omega
      cases r with
      | nil => exact absurd hlt (Nat.not_lt_zero _)
      | cons c r =>
          rw [Re.replaceFrom, hrun]
          simp only [hshorter, if_true, List.nil_append]

/-- Without a match that reads something the text stays. -/
theorem replaceFrom_untouched (h : ∀ y, y <:+ r → ¬Reading gs y) :
    (glyphsRe gs).replaceFrom [] fuel fresh (b, r) = r := by
  induction r generalizing b fuel fresh with
  | nil => exact replaceFrom_nil
  | cons c r ih =>
      cases fuel with
      | zero => rfl
      | succ fuel =>
          rw [replaceFrom_of_not_reading (h (c :: r) (List.suffix_refl _)),
            ih fun y hy => h y (List.suffix_cons_iff.2 (Or.inr hy))]

/-- **A match is taken out**: from the first place where one reads something to its furthest
end `z`, if the rest has none that reads anything. -/
theorem replaceFrom_cut {x y z : List Char} (hfuel : x.length < fuel)
    (hbefore : ∀ t, t <:+ x → t ≠ [] → ¬Reading gs (t ++ y)) (hz : Ends gs y z)
    (hfurthest : ∀ z', Ends gs y z' → z.length ≤ z'.length) (hafter : ∀ t, t <:+ z → ¬Reading gs t) :
    (glyphsRe gs).replaceFrom [] fuel fresh (b, x ++ y) = x ++ z := by
  obtain ⟨fuel, rfl⟩ := Nat.exists_eq_add_of_lt (Nat.zero_lt_of_lt hfuel)
  rw [Nat.zero_add] at hfuel ⊢
  induction x generalizing b fuel fresh with
  | nil =>
      rw [List.nil_append, List.nil_append]
      by_cases hreads : Reading gs y
      · obtain ⟨e, he, hends, hleast, _⟩ := replaceFrom_of_reading fuel fresh b hreads
        have hlength : e.2.length = z.length :=
          Nat.le_antisymm (hleast z hz) (hfurthest e.2 hends)
        obtain rfl : e.2 = z :=
          (List.suffix_of_suffix_length_le hends.suffix hz.suffix (Nat.le_of_eq hlength)).eq_of_length hlength
        rw [he]
        exact replaceFrom_untouched hafter
      · have hlength : z.length = y.length :=
          Nat.le_antisymm hz.suffix.length_le (Nat.le_of_not_lt fun hlt => hreads ⟨z, hz, hlt⟩)
        obtain rfl := hz.suffix.eq_of_length hlength
        exact replaceFrom_untouched hafter
  | cons c x ih =>
      have hnot : ¬Reading gs (c :: (x ++ y)) :=
        hbefore (c :: x) (List.suffix_refl _) (List.cons_ne_nil c x)
      obtain ⟨fuel, rfl⟩ : ∃ fuel', fuel = fuel' + 1 :=
        ⟨fuel - 1, by rw [List.length_cons] at hfuel; omega⟩
      rw [List.cons_append, replaceFrom_of_not_reading hnot,
        ih (fun t ht => hbefore t (List.suffix_cons_iff.2 (Or.inr ht))) fuel
          (Nat.lt_of_succ_lt_succ hfuel), List.cons_append]

theorem length_replaceFrom_le : ((glyphsRe gs).replaceFrom [] fuel fresh (b, r)).length ≤
    r.length := by
  induction fuel generalizing b r fresh with
  | zero => exact Nat.le_refl _
  | succ fuel ih =>
      by_cases hreads : Reading gs r
      · obtain ⟨e, he, _, _, hlt⟩ := replaceFrom_of_reading fuel fresh b hreads
        rw [he]
        exact Nat.le_trans ih (Nat.le_of_lt hlt)
      · cases r with
        | nil => exact Nat.le_of_eq (congrArg List.length replaceFrom_nil)
        | cons c r =>
            rw [replaceFrom_of_not_reading hreads]
            exact Nat.succ_le_succ ih

/-- **Where a match reads something, the text gets shorter.** -/
theorem length_replaceFrom_lt (hfuel : r.length < fuel) {y : List Char} (hy : y <:+ r)
    (hreads : Reading gs y) :
    ((glyphsRe gs).replaceFrom [] fuel fresh (b, r)).length < r.length := by
  induction fuel generalizing b r fresh with
  | zero => exact absurd hfuel (Nat.not_lt_zero _)
  | succ fuel ih =>
      by_cases hhere : Reading gs r
      · obtain ⟨e, he, _, _, hlt⟩ := replaceFrom_of_reading fuel fresh b hhere
        rw [he]
        exact Nat.lt_of_le_of_lt length_replaceFrom_le hlt
      · cases r with
        | nil => exact absurd (List.suffix_nil.1 hy ▸ hreads) hhere
        | cons c r =>
            have hy' : y <:+ r :=
              (List.suffix_cons_iff.1 hy).resolve_left fun heq => hhere (heq ▸ hreads)
            rw [replaceFrom_of_not_reading hhere]
            exact Nat.succ_lt_succ (ih (Nat.lt_of_succ_lt_succ hfuel) hy')

end Replace

/-! ## On one line -/

section Line

variable {gs : List Glyph} {r z : List Char}

/-- Nothing is left to find after a match that ends furthest to the right. -/
theorem not_reading_of_furthest (hdots : .dots ∈ gs) (hline : '\n' ∉ r) (hz : Ends gs r z)
    (hfurthest : ∀ z', Ends gs r z' → z.length ≤ z'.length) {t : List Char} (ht : t <:+ z) :
    ¬Reading gs t := by
  rintro ⟨z₂, h₂, hlt⟩
  obtain ⟨x, rfl⟩ := ht.trans hz.suffix
  have hle := hfurthest z₂ (ends_append hdots (fun hn => hline (List.mem_append_left t hn)) hz h₂)
  have := ht.length_le
  omega

/-- If some ending matches, one does that no match begins before. -/
theorem exists_leftmost_ending (hdots : .dots ∈ gs) {x y : List Char} (hline : '\n' ∉ x)
    (hy : Ends gs y []) :
    ∃ x' y', x ++ y = x' ++ y' ∧ Ends gs y' [] ∧
      ∀ t, t <:+ x' → t ≠ [] → ¬Reading gs (t ++ y') := by
  induction hn : x.length using Nat.strongRecOn generalizing x y with
  | ind n ih =>
      by_cases hbefore : ∀ t, t <:+ x → t ≠ [] → ¬Reading gs (t ++ y)
      · exact ⟨x, y, rfl, hy, hbefore⟩
      · push Not at hbefore
        obtain ⟨t, ⟨x', rfl⟩, hne, z', hz', _⟩ := hbefore
        have hline' : '\n' ∉ t := fun hn => hline (List.mem_append_right x' hn)
        have hshorter : x'.length < n := by
          have := List.length_pos_of_ne_nil hne
          rw [List.length_append] at hn
          omega
        rw [List.append_assoc]
        exact ih _ hshorter (fun hn => hline (List.mem_append_left t hn))
          (ends_append hdots hline' hz' hy) rfl

/-- If a match ends a longer text, and some match begins in the text itself, then a match that ends
the text begins in it, too. -/
theorem exists_ending_of_append {x t s y : List Char} (hline : '\n' ∉ s) (hs : s <:+ x ++ t)
    (hends : Ends gs s []) (hy : y <:+ t) (hyz : Ends gs y z) :
    ∃ y', y' <:+ t ∧ Ends gs y' [] := by
  have hyt : y <:+ x ++ t := hy.trans (List.suffix_append x t)
  rcases Nat.le_total s.length y.length with hle | hle
  · exact ⟨s, (List.suffix_of_suffix_length_le hs hyt hle).trans hy, hends⟩
  · obtain ⟨a, rfl⟩ := List.suffix_of_suffix_length_le hyt hs hle
    obtain ⟨z₂, h₂, hz₂⟩ := exists_ends_le (fun hn => hline (List.mem_append_left y hn)) hends hyz
    rw [List.length_eq_zero_iff.1 (Nat.le_zero.1 hz₂)] at h₂
    exact ⟨y, hy, h₂⟩

end Line

end Regexp
end IntegrityShield
