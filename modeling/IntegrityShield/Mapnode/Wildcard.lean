/-
# Wildcards in keys

`isListed` of `shield/pkg/util/mapnode/diff.go` matches a key with a `*` by writing `.*` for each
star and looking for the expression anywhere in the path.  If nothing but stars and dots has a
meaning in it, it finds a part of the path that reads like the key, a dot standing for any
character and a star for any text of one line (`isListed_plain_iff`).

A star should stand for any text and everything else for itself, in the whole path
(`Glob.Matches`).  That is so for a text between stars, whatever the path (`Embraced`), and among
the keys without other special characters for no others: a dot reads any character, a key that
does not begin or end with a star is found in longer paths, and a star between two texts does not
reach over the end of a line (`embraced_of_glob`).
-/

import IntegrityShield.Base.Glob
import IntegrityShield.Mapnode.Key

namespace IntegrityShield
namespace Mapnode

open Regexp (Glyph Writes metaChars)

/-- What a character of a key is in the expression. -/
def ruleGlyph (c : Char) : Glyph := if c = '*' then .dots else if c = '.' then .dot else .char c

/-- How it is written there. -/
def ruleText (c : Char) : List Char := if c = '*' then ['.', '*'] else [c]

/-- A key of stars only, or of a text without special characters between stars. -/
def Embraced (rule : List Char) : Prop :=
  rule = ['*'] ∨ ∃ m n x, rule = List.replicate (m + 1) '*' ++ x ++ List.replicate (n + 1) '*' ∧
    ∀ c ∈ x, c ∉ metaChars

theorem writes_ruleText {c : Char} (h : c = '*' ∨ c = '.' ∨ c ∉ metaChars) :
    Writes (ruleText c) (ruleGlyph c) := by
  unfold ruleText ruleGlyph
  split_ifs with hstar hdot
  · exact .dots
  · exact hdot ▸ .dot
  · exact .char ((h.resolve_left hstar).resolve_left hdot)

/-! ## Reading a key -/

/-- The characters that stand for themselves, with any character for a dot, read like the key. -/
theorem matches_bare_map {f : Char → Char} (hf : ∀ c, c ≠ '.' → f c = c) (hdot : f '.' ≠ '\n')
    (p : List Char) : Regexp.Matches (p.map ruleGlyph) ((Glob.bare p).map f) := by
  induction p with
  | nil => rfl
  | cons c p ih =>
      rw [List.map_cons, ruleGlyph]
      split_ifs with hstar hc
      · exact ⟨[], _, by rw [hstar, Glob.bare_cons_star]; rfl, List.not_mem_nil, ih⟩
      · refine ⟨[f c], _, by rw [Glob.bare_cons_of_ne hstar]; rfl, ⟨f c, rfl, ?_⟩, ih⟩
        rw [hc]
        exact hdot
      · refine ⟨[f c], _, by rw [Glob.bare_cons_of_ne hstar]; rfl, ?_, ih⟩
        rw [Glyph.Reads, hf c hc]

theorem matches_bare (p : List Char) : Regexp.Matches (p.map ruleGlyph) (Glob.bare p) := by
  have h := matches_bare_map (f := id) (fun _ _ => rfl) (by decide) p
  rwa [List.map_id] at h

/-- On one line a text of the key reads like it. -/
theorem matches_of_glob {p w : List Char} (hline : '\n' ∉ w) (h : Glob.Matches p w) :
    Regexp.Matches (p.map ruleGlyph) w := by
  induction p generalizing w with
  | nil => exact h
  | cons c p ih =>
      rw [Glob.Matches] at h
      rw [List.map_cons, ruleGlyph]
      split_ifs at h ⊢ with hstar hdot
      · obtain ⟨u, v, rfl, hv⟩ := h
        obtain ⟨hu, hv'⟩ := not_or.1 (mt List.mem_append.2 hline)
        exact ⟨u, v, rfl, hu, ih hv' hv⟩
      · obtain ⟨v, rfl, hv⟩ := h
        obtain ⟨hc, hv'⟩ := not_or.1 (mt List.mem_cons.2 hline)
        exact ⟨[c], v, rfl, ⟨c, rfl, Ne.symm hc⟩, ih hv' hv⟩
      · obtain ⟨v, rfl, hv⟩ := h
        exact ⟨[c], v, rfl, rfl, ih (fun hn => hline (List.mem_cons_of_mem c hn)) hv⟩

/-- What reads like a key is at least as long as its characters, and has no line end unless the key
has one. -/
theorem length_bare_le {p w : List Char} (h : Regexp.Matches (p.map ruleGlyph) w) :
    (Glob.bare p).length ≤ w.length ∧ ('\n' ∉ p → '\n' ∉ w) := by
  induction p generalizing w with
  | nil =>
      obtain rfl : w = [] := h
      exact ⟨Nat.le_refl _, fun _ => List.not_mem_nil⟩
  | cons c p ih =>
      rw [List.map_cons, ruleGlyph] at h
      obtain ⟨u, v, rfl, hu, hv⟩ := h
      obtain ⟨hlength, hline⟩ := ih hv
      have hboth : ∀ {u : List Char}, ('\n' ∉ c :: p → '\n' ∉ u) → '\n' ∉ c :: p → '\n' ∉ u ++ v :=
        fun hu hp => mt List.mem_append.1
          (not_or.2 ⟨hu hp, hline fun hn => hp (List.mem_cons_of_mem c hn)⟩)
      rw [List.length_append]
      split_ifs at hu with hstar hdot
      · rw [hstar, Glob.bare_cons_star]
        exact ⟨by omega, hstar ▸ hboth fun _ => hu⟩
      · obtain ⟨d, rfl, hd⟩ := hu
        rw [Glob.bare_cons_of_ne hstar, List.length_cons, List.length_singleton]
        exact ⟨by omega, hboth fun _ => mt List.mem_singleton.1 (Ne.symm hd)⟩
      · rw [show u = [c] from hu, Glob.bare_cons_of_ne hstar, List.length_cons,
          List.length_singleton]
        refine ⟨by omega, hboth fun hp hn => hp ?_⟩
        rw [List.mem_singleton.1 hn]
        exact List.mem_cons_self

theorem matches_replicate_dots (n : ℕ) :
    Regexp.Matches ((List.replicate n '*').map ruleGlyph) [] := by
  induction n with
  | zero => rfl
  | succ n ih => exact ⟨[], [], rfl, List.not_mem_nil, ih⟩

/-- A text without special characters reads itself. -/
theorem eq_of_matches_literal {x w : List Char} (hx : ∀ c ∈ x, c ∉ metaChars)
    (h : Regexp.Matches (x.map ruleGlyph) w) : w = x := by
  induction x generalizing w with
  | nil => exact h
  | cons c x ih =>
      obtain ⟨hc, hx⟩ := List.forall_mem_cons.1 hx
      have hstar : c ≠ '*' := fun heq => hc (heq ▸ by decide)
      have hdot : c ≠ '.' := fun heq => hc (heq ▸ by decide)
      rw [List.map_cons, ruleGlyph, if_neg hstar, if_neg hdot] at h
      obtain ⟨u, v, rfl, hu, hv⟩ := h
      rw [show u = [c] from hu, ih hx hv]
      rfl

/-- A part of a text without line ends lies before or behind a line end. -/
theorem length_le_of_line {a w z x y : List Char} (h : a ++ w ++ z = x ++ '\n' :: y)
    (hw : '\n' ∉ w) : w.length ≤ x.length ∨ w.length ≤ y.length := by
  have hlength := congrArg List.length h
  simp only [List.length_append, List.length_cons] at hlength
  by_cases hbefore : a.length + w.length ≤ x.length
  · left
    omega
  by_cases hbehind : x.length < a.length
  · right
    omega
  -- otherwise the line end is inside the part
  refine absurd ?_ hw
  have hget : (a ++ w ++ z)[x.length]? = some '\n' := by
    rw [h, List.getElem?_append_right (Nat.le_refl _), Nat.sub_self]
    rfl
  rw [List.getElem?_append_left (by rw [List.length_append]; omega),
    List.getElem?_append_right (by omega)] at hget
  exact List.mem_of_getElem? hget

/-! ## What a key lists -/

section Listed

variable [Regexp.UnicodeTables]

/-- **What a key with a star lists**: a path with a part that reads like the key. -/
theorem isListed_plain_iff {rule : String} (hstar : '*' ∈ rule.toList)
    (hplain : Glob.IsPlain rule.toList) (s : String) :
    isListed s rule = true ↔
      ∃ a w z, s.toList = a ++ w ++ z ∧ Regexp.Matches (rule.toList.map ruleGlyph) w := by
  have hself : Regexp.Matches (rule.toList.map ruleGlyph) rule.toList := by
    induction rule.toList with
    | nil => rfl
    | cons c p ih =>
        rw [List.map_cons, ruleGlyph]
        refine ⟨[c], p, rfl, ?_, ih⟩
        split_ifs with hc hd
        · exact mt List.mem_singleton.1 (by rw [hc]; decide)
        · exact ⟨c, rfl, by rw [hd]; decide⟩
        · rfl
  have htext : Strings.replaceAll rule "*" ".*" = String.ofList (rule.toList.flatMap ruleText) := by
    refine String.toList_inj.1 ?_
    rw [String.toList_ofList]
    exact Strings.replaceAll_char rule '*' ".*"
  have hmatch : Regexp.matchString (Strings.replaceAll rule "*" ".*") s = true ↔
      ∃ a w z, s.toList = a ++ w ++ z ∧ Regexp.Matches (rule.toList.map ruleGlyph) w := by
    rw [htext, Regexp.matchString,
      Regexp.parse_written fun c hc => writes_ruleText (hplain c hc)]
    exact Regexp.matchString_glyphsRe s
  have hne : rule ≠ "" := by
    rintro rfl
    exact absurd hstar List.not_mem_nil
  rw [isListed, if_neg hne, if_pos ((Strings.contains_char_iff rule '*').2 hstar)]
  split_ifs with heq hone
  · exact iff_of_true rfl ⟨[], rule.toList, [], by rw [heq]; simp, hself⟩
  · refine iff_of_true rfl ⟨s.toList, [], [], by simp, ?_⟩
    rw [hone]
    exact ⟨[], [], rfl, List.not_mem_nil, rfl⟩
  · exact hmatch

/-- A path that matches is listed, if it is of one line. -/
theorem isListed_of_glob {rule : String} (hstar : '*' ∈ rule.toList)
    (hplain : Glob.IsPlain rule.toList) {s : String} (hline : '\n' ∉ s.toList)
    (h : Glob.Matches rule.toList s.toList) : isListed s rule = true :=
  (isListed_plain_iff hstar hplain s).2 ⟨[], s.toList, [], by simp, matches_of_glob hline h⟩

/-- **A text between stars** lists the paths that it occurs in. -/
theorem Embraced.isListed_iff {rule : String} (h : Embraced rule.toList) (s : String) :
    isListed s rule = true ↔ Glob.Matches rule.toList s.toList := by
  rcases h with hone | ⟨m, n, x, hrule, hx⟩
  · have heq : rule = "*" := String.toList_inj.1 hone
    refine iff_of_true ?_ ?_
    · by_cases hs : s = rule
      · rw [hs]
        exact isListed_self rule
      · rw [isListed, if_neg hs, if_pos heq]
    · rw [hone]
      exact Glob.matches_replicate_star 0 _
  · have hxstar : '*' ∉ x := fun hmem => hx _ hmem (by decide)
    have hstar : '*' ∈ rule.toList := by
      rw [hrule]
      simp
    have hplain : Glob.IsPlain rule.toList := by
      intro c hc
      rw [hrule] at hc
      simp only [List.mem_append, List.mem_replicate] at hc
      rcases hc with (⟨_, hc⟩ | hc) | ⟨_, hc⟩
      · exact Or.inl hc
      · exact Or.inr (Or.inr (hx c hc))
      · exact Or.inl hc
    rw [isListed_plain_iff hstar hplain, hrule, Glob.matches_embraced_iff hxstar]
    simp only [List.map_append, Regexp.matches_append]
    constructor
    · rintro ⟨a, _, z, hs, _, v, rfl, ⟨u, y, rfl, _, hy⟩, _⟩
      refine ⟨a ++ u, v ++ z, ?_⟩
      rw [hs, eq_of_matches_literal hx hy]
      simp only [List.append_assoc]
    · rintro ⟨a, z, hs⟩
      have hself := matches_bare x
      rw [show Glob.bare x = x from
        List.filter_eq_self.2 fun c hc => bne_iff_ne.2 fun heq => hxstar (heq ▸ hc)] at hself
      exact ⟨a, x, z, hs.symm, x, [], (List.append_nil x).symm,
        ⟨[], x, rfl, matches_replicate_dots _, hself⟩, matches_replicate_dots _⟩

/-! ## Keys that list more or less -/

variable {rule : String} (hstar : '*' ∈ rule.toList) (hplain : Glob.IsPlain rule.toList)
  (hglob : ∀ s, isListed s rule = true ↔ Glob.Matches rule.toList s.toList)

include hstar hplain hglob

/-- A key that lists exactly the paths it matches matches every path with a part that reads like
it. -/
theorem glob_of_reads {w : List Char} (h : Regexp.Matches (rule.toList.map ruleGlyph) w)
    (a z : List Char) : Glob.Matches rule.toList (a ++ w ++ z) := by
  have hs := (hglob (String.ofList (a ++ w ++ z))).1
    ((isListed_plain_iff hstar hplain _).2 ⟨a, w, z, String.toList_ofList, h⟩)
  rwa [String.toList_ofList] at hs

/-- It has no dot. -/
theorem not_mem_dot_of_glob : '.' ∉ rule.toList := by
  intro hdot
  let f : Char → Char := fun c => if c = '.' then 'x' else c
  have hread : Regexp.Matches (rule.toList.map ruleGlyph) ((Glob.bare rule.toList).map f) :=
    matches_bare_map (fun c hc => if_neg hc) (show f '.' ≠ '\n' by decide) _
  have hmatch := glob_of_reads hstar hplain hglob hread [] []
  rw [List.nil_append, List.append_nil] at hmatch
  obtain ⟨c, _, hc⟩ := List.mem_map.1 (Glob.mem_of_matches hmatch hdot (by decide))
  by_cases heq : c = '.'
  · rw [heq] at hc
    exact absurd hc (by decide)
  · rw [show f c = c from if_neg heq] at hc
    exact heq hc

/-- It begins with a star. -/
theorem head_of_glob {c : Char} {p : List Char} (hrule : rule.toList = c :: p) : c = '*' := by
  by_contra hc
  obtain ⟨d, hd⟩ : ∃ d : Char, d ≠ c := ⟨if c = 'a' then 'b' else 'a', by split_ifs <;> grind⟩
  have hmatch := glob_of_reads hstar hplain hglob (matches_bare rule.toList) [d] []
  rw [hrule, Glob.Matches, if_neg hc] at hmatch
  obtain ⟨v, hv, _⟩ := hmatch
  exact hd (List.cons.inj hv).1

/-- It ends with a star. -/
theorem last_of_glob {c : Char} {p : List Char} (hrule : rule.toList = p ++ [c]) : c = '*' := by
  by_contra hc
  obtain ⟨d, hd⟩ : ∃ d : Char, d ≠ c := ⟨if c = 'a' then 'b' else 'a', by split_ifs <;> grind⟩
  have hmatch := glob_of_reads hstar hplain hglob (matches_bare rule.toList) [] [d]
  rw [hrule] at hmatch
  obtain ⟨u, v, huv, _, hv⟩ := Glob.matches_append.1 hmatch
  have hv : v = [c] := Glob.eq_of_matches (mt List.mem_singleton.1 (Ne.symm hc)) hv
  rw [hv] at huv
  exact hd (List.cons.inj (List.append_inj_right' huv rfl)).1

/-- It has no star between two characters that stand for themselves. -/
theorem bare_of_glob (hline : '\n' ∉ rule.toList) {p q : List Char}
    (hrule : rule.toList = p ++ '*' :: q) : Glob.bare p = [] ∨ Glob.bare q = [] := by
  have hmatch : Glob.Matches rule.toList (Glob.bare p ++ '\n' :: Glob.bare q) := by
    rw [hrule]
    exact Glob.matches_append.2 ⟨_, _, rfl, Glob.matches_bare p,
      ⟨['\n'], Glob.bare q, rfl, Glob.matches_bare q⟩⟩
  rw [← String.toList_ofList (l := Glob.bare p ++ '\n' :: Glob.bare q)] at hmatch
  obtain ⟨a, w, z, hs, hw⟩ := (isListed_plain_iff hstar hplain _).1 ((hglob _).2 hmatch)
  rw [String.toList_ofList] at hs
  obtain ⟨hlength, hwline⟩ := length_bare_le hw
  rw [hrule, Glob.bare_append, Glob.bare_cons_star, List.length_append] at hlength
  rcases length_le_of_line hs.symm (hwline hline) with hle | hle
  · exact Or.inr (List.length_eq_zero_iff.1 (by omega))
  · exact Or.inl (List.length_eq_zero_iff.1 (by omega))

/-- What is left of it without its first and last stars has no star. -/
theorem not_mem_star_of_glob (hline : '\n' ∉ rule.toList) {m n : ℕ} {x : List Char}
    (hrule : rule.toList = List.replicate m '*' ++ x ++ List.replicate n '*')
    (hhead : x.head? ≠ some '*') (hlast : x.getLast? ≠ some '*') : '*' ∉ x := by
  intro hmem
  obtain ⟨p, q, rfl⟩ := List.append_of_mem hmem
  have hsplit : rule.toList =
      (List.replicate m '*' ++ p) ++ '*' :: (q ++ List.replicate n '*') := by
    rw [hrule]
    simp only [List.append_assoc, List.cons_append]
  rcases bare_of_glob hstar hplain hglob hline hsplit with hp | hq
  · rcases p with _ | ⟨c, p⟩
    · exact hhead rfl
    · refine hhead ?_
      rw [Glob.eq_star_of_bare hp (List.mem_append_right _ List.mem_cons_self)]
      rfl
  · rcases q.eq_nil_or_concat with rfl | ⟨q, d, rfl⟩
    · exact hlast List.getLast?_concat
    · refine hlast ?_
      rw [Glob.eq_star_of_bare hq (c := d) (by simp), List.concat_eq_append, ← List.cons_append,
        ← List.append_assoc]
      exact List.getLast?_concat

/-- So it is a text between stars. -/
theorem embraced_of_glob (hline : '\n' ∉ rule.toList) : Embraced rule.toList := by
  obtain ⟨m, n, x, hrule, hhead, hlast⟩ := Glob.exists_core rule.toList
  rcases x with _ | ⟨c, x⟩
  · -- stars only: one, or a first and a last one with nothing between
    rw [List.append_nil, List.replicate_append_replicate] at hrule
    have hpos : m + n ≠ 0 := (List.mem_replicate.1 (hrule ▸ hstar)).1
    by_cases hone : m + n = 1
    · exact Or.inl (by rw [hrule, hone]; rfl)
    · refine Or.inr ⟨0, m + n - 2, [], ?_, fun _ hc => absurd hc List.not_mem_nil⟩
      rw [hrule, List.append_nil, List.replicate_append_replicate]
      congr 1
      omega
  · have hx := not_mem_star_of_glob hstar hplain hglob hline hrule hhead hlast
    have hm : m ≠ 0 := by
      rintro rfl
      exact hx (head_of_glob hstar hplain hglob hrule ▸ List.mem_cons_self)
    have hn : n ≠ 0 := by
      rintro rfl
      obtain ⟨z, d, hz⟩ := (c :: x).eq_nil_or_concat.resolve_left (List.cons_ne_nil c x)
      rw [List.concat_eq_append] at hz
      rw [List.replicate_zero, List.append_nil, hz, ← List.append_assoc] at hrule
      have hd : d ∈ c :: x := hz ▸ List.mem_append_right z List.mem_cons_self
      exact hx (last_of_glob hstar hplain hglob hrule ▸ hd)
    refine Or.inr ⟨m - 1, n - 1, c :: x, ?_, fun e he => ?_⟩
    · rw [hrule, Nat.sub_add_cancel (by omega), Nat.sub_add_cancel (by omega)]
    · have hmem : e ∈ rule.toList := by
        rw [hrule]
        exact List.mem_append_left _ (List.mem_append_right _ he)
      have hdot := not_mem_dot_of_glob hstar hplain hglob
      exact ((hplain e hmem).resolve_left fun heq => hx (heq ▸ he)).resolve_left
        fun heq => hdot (heq ▸ hmem)

end Listed

/-- **Keys with a star.**  A text between stars lists the paths it stands for.  A key without other
special characters lists a path of one line rightly unless a part of it reads like the key and the
whole does not match; without a line end in it, it lists all paths rightly only if it is a text
between stars. -/
theorem isListed_glob_iff [Regexp.UnicodeTables] {rule : String} (hstar : '*' ∈ rule.toList) :
    (Embraced rule.toList →
      ∀ s, (isListed s rule = true ↔ Glob.Matches rule.toList s.toList)) ∧
    (Glob.IsPlain rule.toList →
      (∀ s : String, '\n' ∉ s.toList →
        ((isListed s rule = true ↔ Glob.Matches rule.toList s.toList) ↔
          ¬ ((∃ a w z, s.toList = a ++ w ++ z ∧ Regexp.Matches (rule.toList.map ruleGlyph) w) ∧
            ¬ Glob.Matches rule.toList s.toList))) ∧
      ('\n' ∉ rule.toList →
        ((∀ s, (isListed s rule = true ↔ Glob.Matches rule.toList s.toList)) ↔
          Embraced rule.toList))) := by
  refine ⟨Embraced.isListed_iff, fun hplain => ⟨fun s hline => ?_, fun hline => ?_⟩⟩
  · have hlisted := isListed_of_glob hstar hplain hline
    rw [← isListed_plain_iff hstar hplain s, not_and_not_right]
    exact ⟨Iff.mp, fun h => ⟨h, hlisted⟩⟩
  · exact ⟨fun h => embraced_of_glob hstar hplain h hline, Embraced.isListed_iff⟩

theorem isListed_glob_env :
    letI := Regexp.UnicodeTables.empty
    isListed "spec.env.name" "*env*" = true ↔
      Glob.Matches "*env*".toList "spec.env.name".toList := by
  let _ := Regexp.UnicodeTables.empty
  have hplain : ∀ c ∈ ['e', 'n', 'v'], c ∉ metaChars := by
    intro c hc
    simp only [List.mem_cons, List.not_mem_nil, or_false] at hc
    rcases hc with rfl | rfl | rfl <;> decide
  exact (@isListed_glob_iff _ "*env*" (by decide)).1
    (Or.inr ⟨0, 0, ['e', 'n', 'v'], by decide, hplain⟩) "spec.env.name"

/-- `status*` lists an attribute with the word somewhere in its path, and `spec.*` one with another
character in the place of the dot. -/
theorem isListed_inside :
    letI := Regexp.UnicodeTables.empty
    (isListed "metadata.status" "status*" = true ∧
      ¬ Glob.Matches "status*".toList "metadata.status".toList) ∧
    isListed "spec-replicas" "spec.*" = true ∧
      ¬ Glob.Matches "spec.*".toList "spec-replicas".toList := by
  refine ⟨⟨by decide +kernel, fun h => ?_⟩, by decide +kernel, fun h => ?_⟩
  · rw [show "status*".toList = 's' :: "tatus*".toList from rfl, Glob.Matches,
      if_neg (by decide)] at h
    obtain ⟨v, hv, _⟩ := h
    exact absurd (List.cons.inj hv).1 (by decide)
  · exact absurd (Glob.mem_of_matches h (c := '.') (by decide) (by decide)) (by decide)

end Mapnode
end IntegrityShield
