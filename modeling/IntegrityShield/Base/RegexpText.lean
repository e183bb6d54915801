/-
# Expressions of literal characters and dots

An expression whose characters stand for themselves, but for dots and `.*`, always compiles
(`parse_glyphs`; with dots that are escaped, `parse_written`), and what it finds in a text can be
said without the matcher: a stretch of the text that its elements read one after the other
(`matchString_glyphs`).  The wildcard expressions made from a name by replacing `*` are of this
kind.
-/

import IntegrityShield.Base.RegexpParse

namespace IntegrityShield
namespace Regexp

/-- The characters that have a meaning in an expression. -/
def metaChars : List Char :=
  ['\\', '.', '+', '*', '?', '(', ')', '|', '[', ']', '{', '}', '^', '$']

/-- An element of a text expression: a character, `.` or `.*`. -/
inductive Glyph where
  | char (c : Char)
  | dot
  | dots
deriving DecidableEq

def Glyph.chars : Glyph → List Char
  | .char c => [c]
  | .dot => ['.']
  | .dots => ['.', '*']

/-- A character that stands for itself. -/
def Glyph.IsText : Glyph → Prop
  | .char c => c ∉ metaChars
  | _ => True

/-- The texts that an element reads. -/
def Glyph.Reads : Glyph → List Char → Prop
  | .char c, w => w = [c]
  | .dot, w => ∃ d, w = [d] ∧ d ≠ '\n'
  | .dots, w => '\n' ∉ w

/-- The texts that the elements read one after the other. -/
def Matches : List Glyph → List Char → Prop
  | [], w => w = []
  | g :: gs, w => ∃ u v, w = u ++ v ∧ g.Reads u ∧ Matches gs v

theorem matches_append {gs gs' : List Glyph} {w : List Char} :
    Matches (gs ++ gs') w ↔ ∃ u v, w = u ++ v ∧ Matches gs u ∧ Matches gs' v := by
  induction gs generalizing w with
  | nil =>
      constructor
      · exact fun h => ⟨[], w, rfl, rfl, h⟩
      · rintro ⟨u, v, rfl, rfl, hv⟩
        exact hv
  | cons g gs ih =>
      constructor
      · rintro ⟨u, v, rfl, hu, hv⟩
        obtain ⟨v, v', rfl, hv, hv'⟩ := ih.1 hv
        exact ⟨u ++ v, v', (List.append_assoc ..).symm, ⟨u, v, rfl, hu, hv⟩, hv'⟩
      · rintro ⟨_, v', rfl, ⟨u, v, rfl, hu, hv⟩, hv'⟩
        exact ⟨u, v ++ v', List.append_assoc .., hu, ih.2 ⟨v, v', rfl, hv, hv'⟩⟩

def Glyph.re : Glyph → Re
  | .char c => .char (· == c)
  | .dot => .char (· != '\n')
  | .dots => .star (.char (· != '\n'))

/-- The parsed expression. -/
def glyphsRe (gs : List Glyph) : Re := gs.foldr (fun g re => .cat g.re re) .empty

/-- How an element is written: a character without a meaning as itself, a literal dot escaped. -/
inductive Writes : List Char → Glyph → Prop
  | char {c : Char} (h : c ∉ metaChars) : Writes [c] (.char c)
  | escapedDot : Writes ['\\', '.'] (.char '.')
  | dot : Writes ['.'] .dot
  | dots : Writes ['.', '*'] .dots

theorem writes_chars {g : Glyph} (h : g.IsText) : Writes g.chars g := by
  cases g with
  | char c => exact .char h
  | dot => exact .dot
  | dots => exact .dots

section Written

variable {α : Type*} {text : α → List Char} {glyph : α → Glyph} {l : List α}

/-- What is written never begins with a question mark, so that no `.*` before it turns lazy. -/
theorem head_written (h : ∀ a ∈ l, Writes (text a) (glyph a)) :
    (l.flatMap text).head? ≠ some '?' := by
  cases l with
  | nil => simp
  | cons a l =>
      have ha := h a List.mem_cons_self
      rw [List.flatMap_cons]
      generalize text a = w, glyph a = g at ha
      cases ha with
      | char hc =>
          intro hhead
          obtain rfl := Option.some.inj hhead
          exact hc (by decide)
      | escapedDot => exact fun hhead => absurd (Option.some.inj hhead) (by decide)
      | dot => exact fun hhead => absurd (Option.some.inj hhead) (by decide)
      | dots => exact fun hhead => absurd (Option.some.inj hhead) (by decide)

end Written

/-! ## Parsing -/

section Parse

variable [UnicodeTables]

theorem parseGroup_char {c : Char} (hc : c ∉ metaChars) (fuel : ℕ) (fl : Flags) (g : Group)
    (repeated : Bool) (names : List String) (rest : List Char) :
    parseGroup (fuel + 1) fl g repeated names (c :: rest) =
      parseGroup fuel fl { g with items := fl.lit c :: g.items } false names rest := by
  rw [parseGroup]
  -- every other case begins with a character that has a meaning
  all_goals
    intros
    subst_vars
    exact hc (by decide)

theorem parseGroup_dot (fuel : ℕ) (fl : Flags) (g : Group) (repeated : Bool) (names : List String)
    (rest : List Char) :
    parseGroup (fuel + 1) fl g repeated names ('.' :: rest) =
      parseGroup fuel fl { g with items := (.char fun c => fl.dotNL || c != '\n') :: g.items } false
        names rest := by
  rw [parseGroup]

theorem parseGroup_star {rest : List Char} (hrest : rest.head? ≠ some '?') (fuel : ℕ) (fl : Flags)
    (alts : List Re) (a : Re) (items : List Re) (names : List String) :
    parseGroup (fuel + 1) fl ⟨alts, a :: items⟩ false names ('*' :: rest) =
      parseGroup fuel fl ⟨alts, .rep 0 none (!fl.nonGreedy) a :: items⟩ true names rest := by
  rw [parseGroup]
  simp [hrest]

theorem parseGroup_escapedDot (fuel : ℕ) (fl : Flags) (g : Group) (repeated : Bool)
    (names : List String) (rest : List Char) :
    parseGroup (fuel + 1) fl g repeated names ('\\' :: '.' :: rest) =
      parseGroup fuel fl { g with items := fl.lit '.' :: g.items } false names rest := by
  have hescape : parseEscape ('.' :: rest) = some ('.', rest) := rfl
  have hclass : perlClass '.' = none := rfl
  rw [parseGroup]
  · rw [hclass, hescape, Option.bind_some]
  -- the dot is none of the letters that an escape gives a meaning
  all_goals decide

section Written

variable {α : Type*} {text : α → List Char} {glyph : α → Glyph} {l : List α}

theorem parseGroup_written (h : ∀ a ∈ l, Writes (text a) (glyph a)) {fuel : ℕ}
    (hfuel : (l.flatMap text).length < fuel) (items : List Re) (repeated : Bool) :
    parseGroup fuel {} ⟨[], items⟩ repeated [] (l.flatMap text) =
      some ((((l.map glyph).map Glyph.re).reverse ++ items).foldl (fun re a => .cat a re) .empty,
        [], []) := by
  induction l generalizing fuel items repeated with
  | nil =>
      obtain ⟨fuel, rfl⟩ := Nat.exists_eq_add_of_lt hfuel
      rw [List.flatMap_nil, parseGroup]
      rfl
  | cons a l ih =>
      obtain ⟨ha, hl⟩ := List.forall_mem_cons.1 h
      obtain ⟨fuel, rfl⟩ := Nat.exists_eq_add_of_lt (Nat.zero_lt_of_lt hfuel)
      rw [List.flatMap_cons, List.length_append] at hfuel
      rw [Nat.zero_add] at hfuel ⊢
      rw [List.flatMap_cons, List.map_cons]
      generalize text a = w, glyph a = g at ha hfuel
      cases ha with
      | char hc =>
          rw [List.length_singleton] at hfuel
          rw [List.singleton_append, parseGroup_char hc, ih hl (by omega)]
          simp [Glyph.re, Flags.lit, Flags.cls]
      | escapedDot =>
          rw [List.length_cons, List.length_singleton] at hfuel
          rw [List.cons_append, List.singleton_append, parseGroup_escapedDot, ih hl (by omega)]
          simp [Glyph.re, Flags.lit, Flags.cls]
      | dot =>
          rw [List.length_singleton] at hfuel
          rw [List.singleton_append, parseGroup_dot, ih hl (by omega)]
          simp [Glyph.re]
      | dots =>
          rw [List.length_cons, List.length_singleton] at hfuel
          obtain ⟨fuel, rfl⟩ : ∃ fuel', fuel = fuel' + 1 := ⟨fuel - 1, by omega⟩
          rw [List.cons_append, List.singleton_append, parseGroup_dot,
            parseGroup_star (head_written hl), ih hl (by omega)]
          simp [Glyph.re, Re.star]

/-- **Text expressions compile**, whichever way their elements are written. -/
theorem parse_written (h : ∀ a ∈ l, Writes (text a) (glyph a)) :
    parse (String.ofList (l.flatMap text)) = some (glyphsRe (l.map glyph)) := by
  have hfuel : (l.flatMap text).length < 2 * (String.ofList (l.flatMap text)).length + 2 := by
    rw [← String.length_toList, String.toList_ofList]
    omega
  rw [parse, String.toList_ofList, parseGroup_written h hfuel]
  rw [List.append_nil, List.foldl_reverse, glyphsRe, List.foldr_map]

end Written

/-- An expression of literal characters, `.` and `.*` compiles. -/
theorem parse_glyphs {gs : List Glyph} (h : ∀ g ∈ gs, g.IsText) :
    parse (String.ofList (gs.flatMap Glyph.chars)) = some (glyphsRe gs) := by
  have hparse : parse (String.ofList (gs.flatMap Glyph.chars)) = some (glyphsRe (gs.map id)) :=
    parse_written fun g hg => writes_chars (h g hg)
  rwa [List.map_id] at hparse

end Parse

/-! ## Matching -/

/-- The ends of the matches of a character class. -/
theorem mem_run_char {f : Char → Bool} {b r : List Char} {p : Pos} :
    p ∈ (Re.char f).run (b, r) ↔ ∃ c r', r = c :: r' ∧ f c = true ∧ p = (c :: b, r') := by
  cases r with
  | nil => simp [Re.run]
  | cons c r =>
      rw [Re.run]
      split
      · rename_i hf
        simp [hf]
      · rename_i hf
        simp [hf]

theorem mem_run_cat {a b : Re} {p q : Pos} :
    p ∈ (Re.cat a b).run q ↔ ∃ r ∈ a.run q, p ∈ b.run r := by
  rw [Re.run, List.mem_flatMap]

theorem mem_upTo_char {f : Char → Bool} {n : ℕ} {b r : List Char} {p : Pos} (hn : r.length ≤ n) :
    p ∈ upTo (Re.char f).run true n (b, r) ↔
      ∃ w r', r = w ++ r' ∧ (∀ c ∈ w, f c = true) ∧ p = (w.reverse ++ b, r') := by
  induction n generalizing b r with
  | zero =>
      obtain rfl := List.length_eq_zero_iff.1 (Nat.le_zero.1 hn)
      rw [upTo, List.mem_singleton]
      constructor
      · rintro rfl
        exact ⟨[], [], rfl, by simp, rfl⟩
      · rintro ⟨w, r', hw, _, rfl⟩
        obtain ⟨rfl, rfl⟩ := List.append_eq_nil_iff.1 hw.symm
        rfl
  | succ n ih =>
      rw [upTo, if_pos rfl, List.mem_append, List.mem_singleton, List.mem_flatMap]
      constructor
      · rintro (⟨q, hq, hp⟩ | rfl)
        · obtain ⟨c, r', rfl, hc, rfl⟩ := mem_run_char.1 (List.mem_filter.1 hq).1
          obtain ⟨w, r'', rfl, hw, rfl⟩ := (ih (Nat.le_of_succ_le_succ hn)).1 hp
          exact ⟨c :: w, r'', rfl, List.forall_mem_cons.2 ⟨hc, hw⟩, by simp⟩
        · exact ⟨[], r, rfl, by simp, rfl⟩
      · rintro ⟨w, r', rfl, hw, rfl⟩
        cases w with
        | nil => exact Or.inr rfl
        | cons c w =>
            obtain ⟨hc, hw⟩ := List.forall_mem_cons.1 hw
            refine Or.inl ⟨(c :: b, w ++ r'),
              List.mem_filter.2 ⟨mem_run_char.2 ⟨c, _, rfl, hc, rfl⟩, ?_⟩, ?_⟩
            · simp
            · exact (ih (Nat.le_of_succ_le_succ hn)).2 ⟨w, r', rfl, hw, by simp⟩

/-- The ends of the matches of an element. -/
theorem mem_run_glyph {g : Glyph} {b r : List Char} {p : Pos} :
    p ∈ g.re.run (b, r) ↔ ∃ w r', r = w ++ r' ∧ g.Reads w ∧ p = (w.reverse ++ b, r') := by
  cases g with
  | char c =>
      rw [Glyph.re, mem_run_char]
      constructor
      · rintro ⟨d, r', rfl, hd, rfl⟩
        exact ⟨[d], r', rfl, by rw [Glyph.Reads, beq_iff_eq.1 hd], rfl⟩
      · rintro ⟨w, r', rfl, rfl, rfl⟩
        exact ⟨c, r', rfl, beq_self_eq_true c, rfl⟩
  | dot =>
      rw [Glyph.re, mem_run_char]
      constructor
      · rintro ⟨d, r', rfl, hd, rfl⟩
        exact ⟨[d], r', rfl, ⟨d, rfl, by simpa using hd⟩, rfl⟩
      · rintro ⟨w, r', rfl, ⟨d, rfl, hd⟩, rfl⟩
        exact ⟨d, r', rfl, by simpa using hd, rfl⟩
  | dots =>
      have hreads : ∀ w : List Char, (∀ c ∈ w, (c != '\n') = true) ↔ '\n' ∉ w := by
        intro w
        simp only [bne_iff_ne]
        exact ⟨fun h hmem => h _ hmem rfl, fun h c hc hn => h (hn ▸ hc)⟩
      rw [Glyph.re, Re.star, Re.run]
      simp only [times, List.flatMap_singleton, Option.map_none, Option.getD_none,
        mem_upTo_char (Nat.le_refl _), hreads]
      rfl

/-- The ends of the matches of a text expression. -/
theorem mem_run_glyphs {gs : List Glyph} {b r : List Char} {p : Pos} :
    p ∈ (glyphsRe gs).run (b, r) ↔
      ∃ w r', r = w ++ r' ∧ Matches gs w ∧ p = (w.reverse ++ b, r') := by
  induction gs generalizing b r with
  | nil =>
      rw [glyphsRe, List.foldr_nil, Re.run, List.mem_singleton]
      constructor
      · rintro rfl
        exact ⟨[], r, rfl, rfl, rfl⟩
      · rintro ⟨w, r', rfl, rfl, rfl⟩
        rfl
  | cons g gs ih =>
      rw [glyphsRe, List.foldr_cons, ← glyphsRe, mem_run_cat]
      constructor
      · rintro ⟨q, hq, hp⟩
        obtain ⟨u, r', rfl, hu, rfl⟩ := mem_run_glyph.1 hq
        obtain ⟨v, r'', rfl, hv, rfl⟩ := ih.1 hp
        exact ⟨u ++ v, r'', by simp, ⟨u, v, rfl, hu, hv⟩, by simp⟩
      · rintro ⟨w, r', rfl, ⟨u, v, rfl, hu, hv⟩, rfl⟩
        exact ⟨(u.reverse ++ b, v ++ r'), mem_run_glyph.2 ⟨u, v ++ r', by simp, hu, rfl⟩,
          ih.2 ⟨v, r', rfl, hv, by simp⟩⟩

theorem search_iff {re : Re} {before s : List Char} :
    re.search before s = true ↔ ∃ a z, s = a ++ z ∧ ∃ p, p ∈ re.run (a.reverse ++ before, z) := by
  have hempty : ∀ l : List Pos, (!l.isEmpty) = true ↔ ∃ p, p ∈ l := by
    intro l
    cases l with
    | nil => simp
    | cons p l => simp
  induction s generalizing before with
  | nil =>
      rw [Re.search, hempty]
      constructor
      · exact fun h => ⟨[], [], rfl, h⟩
      · rintro ⟨a, z, hs, h⟩
        obtain ⟨rfl, rfl⟩ := List.append_eq_nil_iff.1 hs.symm
        exact h
  | cons c s ih =>
      rw [Re.search, Bool.or_eq_true, hempty]
      refine (or_congr_right ih).trans ?_
      constructor
      · rintro (h | ⟨a, z, rfl, h⟩)
        · exact ⟨[], c :: s, rfl, h⟩
        · exact ⟨c :: a, z, rfl, by simpa using h⟩
      · rintro ⟨a, z, hs, h⟩
        cases a with
        | nil =>
            obtain rfl : c :: s = z := hs
            exact Or.inl h
        | cons d a =>
            obtain ⟨rfl, rfl⟩ := List.cons.inj hs
            exact Or.inr ⟨a, z, rfl, by simpa using h⟩

/-- **What a text expression finds**: a stretch of the text that its elements read. -/
theorem matchString_glyphsRe {gs : List Glyph} (s : String) :
    (glyphsRe gs).matchString s = true ↔ ∃ a w z, s.toList = a ++ w ++ z ∧ Matches gs w := by
  rw [Re.matchString, search_iff]
  constructor
  · rintro ⟨a, z, hs, p, hp⟩
    obtain ⟨w, z', rfl, hw, _⟩ := mem_run_glyphs.1 hp
    exact ⟨a, w, z', by rw [hs, List.append_assoc], hw⟩
  · rintro ⟨a, w, z, hs, hw⟩
    exact ⟨a, w ++ z, by rw [hs, List.append_assoc], _, mem_run_glyphs.2 ⟨w, z, rfl, hw, rfl⟩⟩

theorem matchString_glyphs [UnicodeTables] {gs : List Glyph} (h : ∀ g ∈ gs, g.IsText) (s : String) :
    matchString (String.ofList (gs.flatMap Glyph.chars)) s = true ↔
      ∃ a w z, s.toList = a ++ w ++ z ∧ Matches gs w := by
  rw [matchString, parse_glyphs h]
  exact matchString_glyphsRe s

end Regexp
end IntegrityShield
