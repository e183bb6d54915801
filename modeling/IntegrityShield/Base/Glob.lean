/-
# Patterns with stars

A pattern in which `*` stands for any text and every other character for itself, and the
expression made of it by writing `.*` for each star and a backslash before each dot.  If no other
character has a meaning in an expression, this one compiles (`writes_text`), and it matches the
texts of the pattern, but for those in which a star stands for more than a line
(`matches_glyphs_iff`).
-/

import IntegrityShield.Base.RegexpCut

namespace IntegrityShield
namespace Glob

/-- The texts that a pattern stands for. -/
def Matches : List Char → List Char → Prop
  | [], w => w = []
  | c :: p, w => if c = '*' then ∃ u v, w = u ++ v ∧ Matches p v else ∃ v, w = c :: v ∧ Matches p v

/-- What a character of the pattern is in the expression. -/
def glyph (c : Char) : Regexp.Glyph := if c = '*' then .dots else .char c

/-- How it is written there. -/
def text (c : Char) : List Char :=
  if c = '*' then ['.', '*'] else if c = '.' then ['\\', '.'] else [c]

/-- No character but stars and dots has a meaning in an expression. -/
def IsPlain (p : List Char) : Prop := ∀ c ∈ p, c = '*' ∨ c = '.' ∨ c ∉ Regexp.metaChars

theorem writes_text {c : Char} (h : c = '*' ∨ c = '.' ∨ c ∉ Regexp.metaChars) :
    Regexp.Writes (text c) (glyph c) := by
  unfold text glyph
  split_ifs with hstar hdot
  · exact .dots
  · exact hdot ▸ .escapedDot
  · exact .char ((h.resolve_left hstar).resolve_left hdot)

theorem dots_mem {p : List Char} (h : '*' ∈ p) : .dots ∈ p.map glyph :=
  List.mem_map.2 ⟨'*', h, rfl⟩

/-- A pattern stands for itself, its stars for stars. -/
theorem matches_self (p : List Char) : Matches p p := by
  induction p with
  | nil => rfl
  | cons c p ih =>
      rw [Matches]
      split_ifs with hc
      · exact ⟨[c], p, rfl, ih⟩
      · exact ⟨p, rfl, ih⟩

/-- Without a star it stands for nothing else. -/
theorem eq_of_matches {p w : List Char} (hstar : '*' ∉ p) (h : Matches p w) : w = p := by
  induction p generalizing w with
  | nil => exact h
  | cons c p ih =>
      obtain ⟨hc, hp⟩ := not_or.1 (mt List.mem_cons.2 hstar)
      rw [Matches, if_neg (Ne.symm hc)] at h
      obtain ⟨v, rfl, hv⟩ := h
      rw [ih hp hv]

theorem matches_append {p q w : List Char} :
    Matches (p ++ q) w ↔ ∃ u v, w = u ++ v ∧ Matches p u ∧ Matches q v := by
  induction p generalizing w with
  | nil =>
      constructor
      · exact fun h => ⟨[], w, rfl, rfl, h⟩
      · rintro ⟨u, v, rfl, rfl, hv⟩
        exact hv
  | cons c p ih =>
      simp only [List.cons_append, Matches]
      split_ifs
      · constructor
        · rintro ⟨u, v, rfl, hv⟩
          obtain ⟨v, v', rfl, hv, hv'⟩ := ih.1 hv
          exact ⟨u ++ v, v', (List.append_assoc ..).symm, ⟨u, v, rfl, hv⟩, hv'⟩
        · rintro ⟨_, v', rfl, ⟨u, v, rfl, hv⟩, hv'⟩
          exact ⟨u, v ++ v', List.append_assoc .., ih.2 ⟨v, v', rfl, hv, hv'⟩⟩
      · constructor
        · rintro ⟨v, rfl, hv⟩
          obtain ⟨v, v', rfl, hv, hv'⟩ := ih.1 hv
          exact ⟨c :: v, v', rfl, ⟨v, rfl, hv⟩, hv'⟩
        · rintro ⟨_, v', rfl, ⟨v, rfl, hv⟩, hv'⟩
          exact ⟨v ++ v', rfl, ih.2 ⟨v, v', rfl, hv, hv'⟩⟩

/-- Stars stand for anything. -/
theorem matches_replicate_star (n : ℕ) (w : List Char) :
    Matches (List.replicate (n + 1) '*') w := by
  induction n with
  | zero => exact ⟨w, [], (List.append_nil w).symm, rfl⟩
  | succ n ih => exact ⟨[], w, rfl, ih⟩

/-- A text between stars stands for the texts it occurs in. -/
theorem matches_embraced_iff {m n : ℕ} {x : List Char} (hx : '*' ∉ x) (w : List Char) :
    Matches (List.replicate (m + 1) '*' ++ x ++ List.replicate (n + 1) '*') w ↔ x <:+: w := by
  simp only [matches_append]
  constructor
  · rintro ⟨_, v, rfl, ⟨a, y, rfl, _, hy⟩, _⟩
    exact ⟨a, v, by rw [eq_of_matches hx hy]⟩
  · rintro ⟨a, v, rfl⟩
    exact ⟨a ++ x, v, rfl, ⟨a, x, rfl, matches_replicate_star m a, matches_self x⟩,
      matches_replicate_star n v⟩

/-- The characters of a pattern that stand for themselves. -/
def bare (p : List Char) : List Char := p.filter (· != '*')

theorem bare_cons_star (p : List Char) : bare ('*' :: p) = bare p := rfl

theorem bare_cons_of_ne {c : Char} (hc : c ≠ '*') (p : List Char) :
    bare (c :: p) = c :: bare p :=
  List.filter_cons_of_pos (bne_iff_ne.2 hc)

theorem bare_append (p q : List Char) : bare (p ++ q) = bare p ++ bare q := List.filter_append ..

theorem eq_star_of_bare {c : Char} {p : List Char} (h : bare p = []) (hc : c ∈ p) : c = '*' := by
  by_contra hne
  exact List.filter_eq_nil_iff.1 h c hc (bne_iff_ne.2 hne)

theorem exists_stars (p : List Char) :
    ∃ m q, p = List.replicate m '*' ++ q ∧ q.head? ≠ some '*' := by
  induction p with
  | nil => exact ⟨0, [], rfl, nofun⟩
  | cons c p ih =>
      by_cases hc : c = '*'
      · obtain ⟨m, q, rfl, hq⟩ := ih
        exact ⟨m + 1, q, by rw [hc]; rfl, hq⟩
      · exact ⟨0, c :: p, rfl, fun h => hc (Option.some.inj h)⟩

/-- What is left of a pattern between its first and its last stars. -/
theorem exists_core (p : List Char) : ∃ m n x,
    p = List.replicate m '*' ++ x ++ List.replicate n '*' ∧
      x.head? ≠ some '*' ∧ x.getLast? ≠ some '*' := by
  obtain ⟨m, q, rfl, hq⟩ := exists_stars p
  -- the last stars are the first ones from the other side
  obtain ⟨n, y, hy, hlast⟩ := exists_stars q.reverse
  have hsplit : q = y.reverse ++ List.replicate n '*' := by
    rw [← List.reverse_reverse q, hy, List.reverse_append, List.reverse_replicate]
  refine ⟨m, n, y.reverse, ?_, fun hhead => hq ?_, ?_⟩
  · rw [List.append_assoc, ← hsplit]
  · rw [hsplit, List.head?_append, hhead]
    rfl
  · rwa [List.getLast?_reverse]

theorem matches_bare (p : List Char) : Matches p (bare p) := by
  induction p with
  | nil => rfl
  | cons c p ih =>
      rw [Matches]
      split_ifs with hc
      · exact ⟨[], bare p, by rw [hc, bare_cons_star]; rfl, ih⟩
      · exact ⟨bare p, bare_cons_of_ne hc p, ih⟩

/-- A text of a pattern has the characters of the pattern. -/
theorem mem_of_matches {c : Char} {p w : List Char} (h : Matches p w) (hp : c ∈ p)
    (hc : c ≠ '*') : c ∈ w := by
  obtain ⟨p₁, p₂, rfl⟩ := List.append_of_mem hp
  obtain ⟨u, _, rfl, _, hv⟩ := matches_append.1 h
  rw [Matches, if_neg hc] at hv
  obtain ⟨v, rfl, _⟩ := hv
  exact List.mem_append_right u List.mem_cons_self

theorem matches_of_glyphs {p w : List Char} (h : Regexp.Matches (p.map glyph) w) : Matches p w := by
  induction p generalizing w with
  | nil => exact h
  | cons c p ih =>
      obtain ⟨u, v, rfl, hu, hv⟩ := h
      rw [Matches]
      split_ifs with hc
      · exact ⟨u, v, rfl, ih hv⟩
      · rw [glyph, if_neg hc] at hu
        rw [show u = [c] from hu]
        exact ⟨v, rfl, ih hv⟩

/-- **On one line the expression matches the texts of the pattern.** -/
theorem matches_glyphs_iff {p w : List Char} (hline : '\n' ∉ w) :
    Regexp.Matches (p.map glyph) w ↔ Matches p w := by
  refine ⟨matches_of_glyphs, fun h => ?_⟩
  induction p generalizing w with
  | nil => exact h
  | cons c p ih =>
      rw [Matches] at h
      rw [List.map_cons, Regexp.Matches, glyph]
      split_ifs at h ⊢ with hc
      · obtain ⟨u, v, rfl, hv⟩ := h
        obtain ⟨hu, hv'⟩ := not_or.1 (mt List.mem_append.2 hline)
        exact ⟨u, v, rfl, hu, ih hv' hv⟩
      · obtain ⟨v, rfl, hv⟩ := h
        exact ⟨[c], v, rfl, rfl, ih (fun hn => hline (List.mem_cons_of_mem c hn)) hv⟩

end Glob
end IntegrityShield
