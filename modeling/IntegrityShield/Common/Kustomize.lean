/-
# What a kustomize pattern takes off a name

`KustomizePattern.Override` of `shield/pkg/common/profile.go` takes the prefix and the suffix of a
pattern off the name of a resource, to find the name under which it was signed.  Nothing but a
beginning and an end should go (`StripsAffixes`).

An affix that literally begins or ends the name is taken off as it should.  One with a `*` is
turned into an expression that is not anchored, and every match is taken out, wherever it lies;
characters other than dots keep the meaning they have in an expression.  So a name is safe if the
expression of the prefix finds nothing in it or one match, at the beginning, and that of the suffix
nothing in what is left or one match, at the end (`CleanAffixes`).  On names of one line and for
patterns without other characters of a meaning, nothing else is safe, unless the cuts of both
affixes together happen to amount to a prefix and a suffix (`override_strips_affixes`).
-/

import IntegrityShield.Base.Glob
import IntegrityShield.Common.Profile

namespace IntegrityShield
namespace Common

open Regexp (Ends Reading)

/-- Nothing, or a text that the pattern of an affix stands for. -/
def IsAffix (pattern : Option String) (affix : List Char) : Prop :=
  affix = [] ∨ ∃ p, pattern = some p ∧ Glob.Matches p.toList affix

/-- Only a prefix and a suffix were taken off a name. -/
def StripsAffixes (self : KustomizePattern) (name m : String) : Prop :=
  ∃ p s, name.toList = p ++ m.toList ++ s ∧ IsAffix self.namePrefix p ∧ IsAffix self.nameSuffix s

/-- The elements of the expression of a pattern. -/
def glyphs (pattern : String) : List Regexp.Glyph := pattern.toList.map Glob.glyph

/-- The expression that a pattern is turned into. -/
def wildcardExpression (pattern : String) : String :=
  Strings.replaceAll (Strings.replaceAll pattern "." "\\.") "*" ".*"

/-- No character of the affixes but stars and dots has a meaning in an expression. -/
def PlainAffixes (self : KustomizePattern) : Prop :=
  ∀ p, self.namePrefix = some p ∨ self.nameSuffix = some p → Glob.IsPlain p.toList

theorem isAffix_none {affix : List Char} (h : IsAffix none affix) : affix = [] := by
  rcases h with h | ⟨p, hp, _⟩
  · exact h
  · cases hp

theorem ends_of_matches {pattern : String} {p : List Char} (hline : '\n' ∉ p)
    (h : Glob.Matches pattern.toList p) (m : List Char) : Ends (glyphs pattern) (p ++ m) m :=
  ⟨p, rfl, (Glob.matches_glyphs_iff hline).2 h⟩

theorem toList_wildcardExpression (pattern : String) :
    (wildcardExpression pattern).toList = pattern.toList.flatMap Glob.text := by
  have hdots := Strings.replaceAll_char pattern '.' "\\."
  have hstars := Strings.replaceAll_char (Strings.replaceAll pattern "." "\\.") '*' ".*"
  rw [wildcardExpression]
  refine hstars.trans ?_
  rw [show Strings.replaceAll pattern "." "\\." =
    Strings.replaceAll pattern (String.ofList ['.']) "\\." from rfl, hdots, List.flatMap_assoc]
  refine List.flatMap_congr fun c _ => ?_
  unfold Glob.text
  by_cases hdot : c = '.'
  · subst hdot
    decide
  · by_cases hstar : c = '*'
    · subst hstar
      decide
    · simp [hdot, hstar]

section

variable [Regexp.UnicodeTables]

theorem parse_wildcardExpression {pattern : String} (h : Glob.IsPlain pattern.toList) :
    Regexp.parse (wildcardExpression pattern) = some (Regexp.glyphsRe (glyphs pattern)) := by
  rw [← String.ofList_toList (s := wildcardExpression pattern), toList_wildcardExpression]
  exact Regexp.parse_written fun c hc => Glob.writes_text (h c hc)

/-- The expression of a pattern is not used, or finds nothing in the text. -/
def FindsNothing (pattern : String) (t : List Char) : Prop :=
  '*' ∉ pattern.toList ∨
    Regexp.matchString (wildcardExpression pattern) (String.ofList t) = false

/-- A plain expression that finds nothing matches no beginning of a part of the text. -/
theorem FindsNothing.not_ends {pattern : String} {t y z : List Char} (h : FindsNothing pattern t)
    (hplain : Glob.IsPlain pattern.toList) (hstar : '*' ∈ pattern.toList) (hy : y <:+ t) :
    ¬Ends (glyphs pattern) y z := by
  rintro ⟨w, rfl, hw⟩
  obtain ⟨a, rfl⟩ := hy
  rcases h with h | h
  · exact h hstar
  · rw [Regexp.matchString, parse_wildcardExpression hplain] at h
    have hfinds : (Regexp.glyphsRe (glyphs pattern)).matchString
        (String.ofList (a ++ (w ++ z))) = true :=
      (Regexp.matchString_glyphsRe _).2
        ⟨a, w, z, by rw [String.toList_ofList, List.append_assoc], hw⟩
    exact absurd hfinds (Bool.eq_false_iff.1 h)

/-- A plain expression finds something where a match begins. -/
theorem exists_ends_of_not_findsNothing {pattern : String} {t : List Char}
    (hplain : Glob.IsPlain pattern.toList) (h : ¬FindsNothing pattern t) :
    '*' ∈ pattern.toList ∧ ∃ y z, y <:+ t ∧ Ends (glyphs pattern) y z := by
  obtain ⟨hstar, hfinds⟩ := not_or.1 h
  rw [Bool.not_eq_false, Regexp.matchString, parse_wildcardExpression hplain] at hfinds
  obtain ⟨a, w, z, ht, hw⟩ := (Regexp.matchString_glyphsRe _).1 hfinds
  rw [String.toList_ofList, List.append_assoc] at ht
  exact ⟨not_not.1 hstar, w ++ z, z, ht ▸ List.suffix_append a (w ++ z), w, rfl, hw⟩

/-! ## The two cuts -/

/-- The first half of `overrideName`. -/
def cutPrefix : Option String → String → String
  | none, name => name
  | some namePrefix, name =>
      if Strings.hasPrefix name namePrefix then
        String.ofList (name.toList.drop namePrefix.length)
      else if Strings.contains namePrefix "*" then cutWildcard namePrefix name
      else name

/-- The second half of `overrideName`. -/
def cutSuffix : Option String → String → String
  | none, name => name
  | some nameSuffix, name =>
      if Strings.hasSuffix name nameSuffix then
        String.ofList (name.toList.take (name.length - nameSuffix.length))
      else if Strings.contains nameSuffix "*" then cutWildcard nameSuffix name
      else name

theorem name_override (self : KustomizePattern) (ref : ResourceRef) :
    (self.override ref).name = cutSuffix self.nameSuffix (cutPrefix self.namePrefix ref.name) := by
  have hname : (self.override ref).name = (self.overrideName ref).name := by
    rw [KustomizePattern.override, KustomizePattern.overrideNamespace]
    split_ifs
    · rfl
    · rfl
  rw [hname, KustomizePattern.overrideName]
  cases self.namePrefix <;> cases self.nameSuffix <;> rfl

theorem toList_cutWildcard {pattern : String} (hplain : Glob.IsPlain pattern.toList)
    (hstar : '*' ∈ pattern.toList) (name : String) :
    (cutWildcard pattern name).toList =
      (Regexp.glyphsRe (glyphs pattern)).replaceFrom [] (name.length + 1) true
        ([], name.toList) := by
  have hparse := parse_wildcardExpression hplain
  rw [wildcardExpression] at hparse
  simp only [cutWildcard, hparse]
  split_ifs with hfinds
  · rw [Regexp.Re.replaceAllString, String.toList_ofList]
    rfl
  · have hnothing : FindsNothing pattern name.toList := by
      rw [FindsNothing, String.ofList_toList, Regexp.matchString, parse_wildcardExpression hplain]
      exact Or.inr (Bool.eq_false_iff.2 hfinds)
    refine (Regexp.replaceFrom_untouched fun y hy => ?_).symm
    rintro ⟨z, hz, _⟩
    exact hnothing.not_ends hplain hstar hy hz

theorem cutWildcard_of_findsNothing {pattern : String} {name : String}
    (hstar : '*' ∈ pattern.toList) (h : FindsNothing pattern name.toList) :
    cutWildcard pattern name = name := by
  have hmatch := h.resolve_left (not_not.2 hstar)
  rw [String.ofList_toList, Regexp.matchString, wildcardExpression] at hmatch
  simp only [cutWildcard]
  cases hparse : Regexp.parse
      (Strings.replaceAll (Strings.replaceAll pattern "." "\\.") "*" ".*") with
  | none => rfl
  | some re =>
      rw [hparse] at hmatch
      exact if_neg (Bool.eq_false_iff.1 hmatch)

/-! ## Clean cuts -/

/-- What a prefix leaves of a text if nothing but a beginning goes: it literally begins the text;
or its expression finds nothing; or it finds one match, at the beginning. -/
inductive PrefixLeaves : Option String → List Char → List Char → Prop
  | unset (t : List Char) : PrefixLeaves none t t
  | literal (namePrefix : String) (t : List Char) :
      PrefixLeaves (some namePrefix) (namePrefix.toList ++ t) t
  | absent {namePrefix : String} {t : List Char} (hnot : ¬namePrefix.toList <+: t)
      (h : FindsNothing namePrefix t) : PrefixLeaves (some namePrefix) t t
  | wildcard {namePrefix : String} {t z : List Char} (hnot : ¬namePrefix.toList <+: t)
      (hstar : '*' ∈ namePrefix.toList) (hplain : Glob.IsPlain namePrefix.toList)
      (hz : Ends (glyphs namePrefix) t z)
      (hfurthest : ∀ z', Ends (glyphs namePrefix) t z' → z.length ≤ z'.length)
      (hafter : ∀ y, y <:+ z → ¬Reading (glyphs namePrefix) y) : PrefixLeaves (some namePrefix) t z

/-- What a suffix leaves of a text if nothing but an end goes. -/
inductive SuffixLeaves : Option String → List Char → List Char → Prop
  | unset (t : List Char) : SuffixLeaves none t t
  | literal (nameSuffix : String) (t : List Char) :
      SuffixLeaves (some nameSuffix) (t ++ nameSuffix.toList) t
  | absent {nameSuffix : String} {t : List Char} (hnot : ¬nameSuffix.toList <:+ t)
      (h : FindsNothing nameSuffix t) : SuffixLeaves (some nameSuffix) t t
  | wildcard {nameSuffix : String} {x y : List Char} (hnot : ¬nameSuffix.toList <:+ x ++ y)
      (hstar : '*' ∈ nameSuffix.toList) (hplain : Glob.IsPlain nameSuffix.toList)
      (hy : Ends (glyphs nameSuffix) y [])
      (hbefore : ∀ t, t <:+ x → t ≠ [] → ¬Reading (glyphs nameSuffix) (t ++ y)) :
      SuffixLeaves (some nameSuffix) (x ++ y) x

/-- The prefix is cut cleanly off the name, and the suffix off what is left. -/
def CleanAffixes (self : KustomizePattern) (name : String) : Prop :=
  ∃ t m, PrefixLeaves self.namePrefix name.toList t ∧ SuffixLeaves self.nameSuffix t m

/-- A clean cut of a prefix is what the code makes. -/
theorem PrefixLeaves.cut {pattern : Option String} {name : String} {t : List Char}
    (h : PrefixLeaves pattern name.toList t) : (cutPrefix pattern name).toList = t := by
  generalize hname : name.toList = l at h
  cases h with
  | unset => exact hname
  | literal namePrefix =>
      have hhas : Strings.hasPrefix name namePrefix = true :=
        (Strings.hasPrefix_iff name namePrefix).2 (hname ▸ List.prefix_append _ t)
      rw [cutPrefix, if_pos hhas, String.toList_ofList, hname, ← String.length_toList,
        List.drop_left]
  | @absent namePrefix _ hnot hnothing =>
      subst hname
      rw [cutPrefix, if_neg (mt (Strings.hasPrefix_iff name namePrefix).1 hnot)]
      split_ifs with hstar
      · rw [cutWildcard_of_findsNothing ((Strings.contains_char_iff _ '*').1 hstar) hnothing]
      · rfl
  | @wildcard namePrefix _ _ hnot hstar hplain hz hfurthest hafter =>
      subst hname
      rw [cutPrefix, if_neg (mt (Strings.hasPrefix_iff name namePrefix).1 hnot),
        if_pos ((Strings.contains_char_iff _ '*').2 hstar), toList_cutWildcard hplain hstar]
      exact Regexp.replaceFrom_cut (x := []) (Nat.zero_lt_succ _)
        (fun t ht hne => absurd (List.suffix_nil.1 ht) hne) hz hfurthest hafter

/-- A clean cut of a suffix is what the code makes. -/
theorem SuffixLeaves.cut {pattern : Option String} {name : String} {m : List Char}
    (h : SuffixLeaves pattern name.toList m) : (cutSuffix pattern name).toList = m := by
  have hlength : name.length = name.toList.length := (String.length_toList ..).symm
  generalize hname : name.toList = l at h
  cases h with
  | unset => exact hname
  | literal nameSuffix =>
      have hhas : Strings.hasSuffix name nameSuffix = true :=
        (Strings.hasSuffix_iff name nameSuffix).2 (hname ▸ List.suffix_append m _)
      rw [cutSuffix, if_pos hhas, String.toList_ofList, hlength, hname, ← String.length_toList,
        List.length_append, Nat.add_sub_cancel, List.take_left]
  | @absent nameSuffix _ hnot hnothing =>
      subst hname
      rw [cutSuffix, if_neg (mt (Strings.hasSuffix_iff name nameSuffix).1 hnot)]
      split_ifs with hstar
      · rw [cutWildcard_of_findsNothing ((Strings.contains_char_iff _ '*').1 hstar) hnothing]
      · rfl
  | @wildcard nameSuffix _ y hnot hstar hplain hy hbefore =>
      rw [← hname] at hnot
      rw [cutSuffix, if_neg (mt (Strings.hasSuffix_iff name nameSuffix).1 hnot),
        if_pos ((Strings.contains_char_iff _ '*').2 hstar), toList_cutWildcard hplain hstar, hname,
        Regexp.replaceFrom_cut (z := []) (by rw [hlength, hname, List.length_append]; omega) hbefore
          hy (fun _ _ => Nat.zero_le _), List.append_nil]
      intro t ht
      rw [List.suffix_nil.1 ht]
      exact fun ⟨_, _, hlt⟩ => absurd hlt (Nat.not_lt_zero _)

theorem PrefixLeaves.exists_affix {pattern : Option String} {t z : List Char}
    (h : PrefixLeaves pattern t z) : ∃ p, t = p ++ z ∧ IsAffix pattern p := by
  cases h with
  | unset => exact ⟨[], rfl, Or.inl rfl⟩
  | literal namePrefix => exact ⟨_, rfl, Or.inr ⟨namePrefix, rfl, Glob.matches_self _⟩⟩
  | absent => exact ⟨[], rfl, Or.inl rfl⟩
  | wildcard _ _ _ hz =>
      obtain ⟨w, rfl, hw⟩ := hz
      exact ⟨w, rfl, Or.inr ⟨_, rfl, Glob.matches_of_glyphs hw⟩⟩

theorem SuffixLeaves.exists_affix {pattern : Option String} {t m : List Char}
    (h : SuffixLeaves pattern t m) : ∃ s, t = m ++ s ∧ IsAffix pattern s := by
  cases h with
  | unset => exact ⟨[], (List.append_nil t).symm, Or.inl rfl⟩
  | literal nameSuffix => exact ⟨_, rfl, Or.inr ⟨nameSuffix, rfl, Glob.matches_self _⟩⟩
  | absent => exact ⟨[], (List.append_nil t).symm, Or.inl rfl⟩
  | wildcard _ _ _ hy =>
      obtain ⟨w, hw, hmatches⟩ := hy
      rw [List.append_nil] at hw
      subst hw
      exact ⟨_, rfl, Or.inr ⟨_, rfl, Glob.matches_of_glyphs hmatches⟩⟩

/-- **Clean cuts take off a prefix and a suffix.** -/
theorem stripsAffixes_of_clean {self : KustomizePattern} {ref : ResourceRef}
    (h : CleanAffixes self ref.name) : StripsAffixes self ref.name (self.override ref).name := by
  obtain ⟨t, m, hprefix, hsuffix⟩ := h
  obtain ⟨p, hp, hpaffix⟩ := hprefix.exists_affix
  obtain ⟨s, rfl, hsaffix⟩ := hsuffix.exists_affix
  refine ⟨p, s, ?_, hpaffix, hsaffix⟩
  rw [← hprefix.cut] at hsuffix
  rw [name_override, hsuffix.cut, hp, List.append_assoc]

/-! ## On names of one line -/

theorem length_cutWildcard_lt {pattern name : String} (hplain : Glob.IsPlain pattern.toList)
    (hstar : '*' ∈ pattern.toList) {y : List Char} (hy : y <:+ name.toList)
    (hreads : Reading (glyphs pattern) y) :
    (cutWildcard pattern name).toList.length < name.toList.length := by
  rw [toList_cutWildcard hplain hstar]
  exact Regexp.length_replaceFrom_lt (by rw [String.length_toList]; omega) hy hreads

/-- A beginning that matches is cut cleanly, up to its furthest end. -/
theorem exists_prefixLeaves {namePrefix : String} {t z : List Char} (hline : '\n' ∉ t)
    (hplain : Glob.IsPlain namePrefix.toList) (hstar : '*' ∈ namePrefix.toList)
    (hz : Ends (glyphs namePrefix) t z) : ∃ m, PrefixLeaves (some namePrefix) t m := by
  by_cases hliteral : namePrefix.toList <+: t
  · obtain ⟨m, rfl⟩ := hliteral
    exact ⟨m, .literal namePrefix m⟩
  · obtain ⟨z₁, h₁, hfurthest⟩ := Regexp.exists_furthest hz
    exact ⟨z₁, .wildcard hliteral hstar hplain h₁ hfurthest fun y hy =>
      Regexp.not_reading_of_furthest (Glob.dots_mem hstar) hline h₁ hfurthest hy⟩

/-- An ending that matches is cut cleanly, from the leftmost one on. -/
theorem exists_suffixLeaves {nameSuffix : String} {t y : List Char} (hline : '\n' ∉ t)
    (hplain : Glob.IsPlain nameSuffix.toList) (hstar : '*' ∈ nameSuffix.toList) (hy : y <:+ t)
    (hends : Ends (glyphs nameSuffix) y []) : ∃ m, SuffixLeaves (some nameSuffix) t m := by
  by_cases hliteral : nameSuffix.toList <:+ t
  · obtain ⟨m, rfl⟩ := hliteral
    exact ⟨m, .literal nameSuffix m⟩
  · obtain ⟨x, rfl⟩ := hy
    obtain ⟨x', y', hxy, hends', hbefore⟩ := Regexp.exists_leftmost_ending (Glob.dots_mem hstar)
      (fun hn => hline (List.mem_append_left y hn)) hends
    rw [hxy] at hliteral ⊢
    exact ⟨x', .wildcard hliteral hstar hplain hends' hbefore⟩

/-- **A prefix that is not cut cleanly**: no beginning of the text matches it, and still some of
the text goes. -/
theorem of_not_prefixLeaves {pattern : Option String} {name : String} (hline : '\n' ∉ name.toList)
    (hplain : ∀ p, pattern = some p → Glob.IsPlain p.toList)
    (h : ¬∃ t, PrefixLeaves pattern name.toList t) :
    (∀ p m, IsAffix pattern p → name.toList = p ++ m → p = []) ∧
      (cutPrefix pattern name).toList.length < name.toList.length := by
  cases pattern with
  | none => exact absurd ⟨_, .unset _⟩ h
  | some namePrefix =>
      have hnot : ¬namePrefix.toList <+: name.toList := by
        rintro ⟨t, ht⟩
        exact h ⟨t, ht ▸ .literal namePrefix t⟩
      obtain ⟨hstar, y, z, hy, hyz⟩ :=
        exists_ends_of_not_findsNothing (hplain _ rfl) fun hnothing => h ⟨_, .absent hnot hnothing⟩
      have hbeginning : ∀ z, ¬Ends (glyphs namePrefix) name.toList z :=
        fun z hz => h (exists_prefixLeaves hline (hplain _ rfl) hstar hz)
      constructor
      · rintro p m (hp | ⟨q, hq, hp⟩) hname
        · exact hp
        · obtain rfl := Option.some.inj hq
          have hlinep : '\n' ∉ p := fun hn => hline (hname ▸ List.mem_append_left m hn)
          exact absurd (hname ▸ ends_of_matches hlinep hp m) (hbeginning m)
      · rw [cutPrefix, if_neg (mt (Strings.hasPrefix_iff name namePrefix).1 hnot),
          if_pos ((Strings.contains_char_iff _ '*').2 hstar)]
        exact length_cutWildcard_lt (hplain _ rfl) hstar hy
          (hyz.reading fun hempty => hbeginning name.toList ⟨[], rfl, hempty⟩)

/-- **A suffix that is not cut cleanly**: some of the text goes, and no text of the line that ends
like it matches, however far it reaches to the left. -/
theorem of_not_suffixLeaves {pattern : Option String} {name : String}
    (hline : '\n' ∉ name.toList) (hplain : ∀ p, pattern = some p → Glob.IsPlain p.toList)
    (h : ¬∃ m, SuffixLeaves pattern name.toList m) :
    (∀ x s m, '\n' ∉ x → IsAffix pattern s → x ++ name.toList = m ++ s → s = []) ∧
      (cutSuffix pattern name).toList.length < name.toList.length := by
  cases pattern with
  | none => exact absurd ⟨_, .unset _⟩ h
  | some nameSuffix =>
      have hnot : ¬nameSuffix.toList <:+ name.toList := by
        rintro ⟨t, ht⟩
        exact h ⟨t, ht ▸ .literal nameSuffix t⟩
      obtain ⟨hstar, y, z, hy, hyz⟩ :=
        exists_ends_of_not_findsNothing (hplain _ rfl) fun hnothing => h ⟨_, .absent hnot hnothing⟩
      have hending : ∀ y, y <:+ name.toList → ¬Ends (glyphs nameSuffix) y [] :=
        fun y hy hends => h (exists_suffixLeaves hline (hplain _ rfl) hstar hy hends)
      constructor
      · rintro x s m hlinex (hs | ⟨q, hq, hs⟩) hname
        · exact hs
        · obtain rfl := Option.some.inj hq
          have hlines : '\n' ∉ s := by
            intro hn
            have hmem : '\n' ∈ x ++ name.toList := hname ▸ List.mem_append_right m hn
            exact (List.mem_append.1 hmem).elim hlinex hline
          have hends := ends_of_matches hlines hs []
          rw [List.append_nil] at hends
          obtain ⟨y', hy', hends'⟩ := Regexp.exists_ending_of_append hlines
            (hname ▸ List.suffix_append m s) hends hy hyz
          exact absurd hends' (hending y' hy')
      · rw [cutSuffix, if_neg (mt (Strings.hasSuffix_iff name nameSuffix).1 hnot),
          if_pos ((Strings.contains_char_iff _ '*').2 hstar)]
        exact length_cutWildcard_lt (hplain _ rfl) hstar hy
          (hyz.reading fun hempty => hending [] List.nil_suffix ⟨[], rfl, hempty⟩)

/-- A clean cut takes off the longest prefix, unless one with a star literally begins the text. -/
theorem PrefixLeaves.length_le {pattern : Option String} {t z p m : List Char}
    (h : PrefixLeaves pattern t z) (hline : '\n' ∉ t)
    (hplain : ∀ p, pattern = some p → Glob.IsPlain p.toList)
    (hstar : ∀ p, pattern = some p → '*' ∈ p.toList → ¬p.toList <+: t)
    (hp : IsAffix pattern p) (ht : t = p ++ m) : z.length ≤ m.length := by
  obtain ⟨_, hz, _⟩ := h.exists_affix
  rcases hp with rfl | ⟨q, hq, hp⟩
  · have := congrArg List.length (hz.symm.trans ht)
    rw [List.length_append, List.length_append, List.length_nil] at this
    omega
  · subst hq
    by_cases hmem : '*' ∈ q.toList
    · have hends : Ends (glyphs q) t m :=
        ht ▸ ends_of_matches (fun hn => hline (ht ▸ List.mem_append_left m hn)) hp m
      cases h with
      | literal => exact absurd (List.prefix_append _ _) (hstar q rfl hmem)
      | absent _ hnothing =>
          exact absurd hends (hnothing.not_ends (hplain q rfl) hmem (List.suffix_refl _))
      | wildcard _ _ _ _ hfurthest => exact hfurthest m hends
    · rw [Glob.eq_of_matches hmem hp] at ht
      have hprefix : q.toList <+: t := ht ▸ List.prefix_append _ m
      cases h with
      | literal => exact (List.append_cancel_left ht).symm ▸ Nat.le_refl _
      | absent hnot => exact absurd hprefix hnot
      | wildcard hnot => exact absurd hprefix hnot

/-- **Only clean cuts take off a prefix and a suffix**, on one line and for plain affixes, if there
is no suffix, or the prefix is cut cleanly and no prefix with a star literally begins the name. -/
theorem clean_of_stripsAffixes {self : KustomizePattern} {ref : ResourceRef}
    (hplain : PlainAffixes self) (hline : '\n' ∉ ref.name.toList)
    (hcase : self.nameSuffix = none ∨ (∃ t, PrefixLeaves self.namePrefix ref.name.toList t) ∧
      ∀ p, self.namePrefix = some p → '*' ∈ p.toList → ¬p.toList <+: ref.name.toList)
    (h : StripsAffixes self ref.name (self.override ref).name) : CleanAffixes self ref.name := by
  obtain ⟨p, s, hname, hp, hs⟩ := h
  rw [name_override] at hname
  have hplainPrefix : ∀ p, self.namePrefix = some p → Glob.IsPlain p.toList :=
    fun p hp => hplain p (Or.inl hp)
  have hplainSuffix : ∀ p, self.nameSuffix = some p → Glob.IsPlain p.toList :=
    fun p hp => hplain p (Or.inr hp)
  by_cases hprefix : ∃ t, PrefixLeaves self.namePrefix ref.name.toList t
  · obtain ⟨t, ht⟩ := hprefix
    by_cases hsuffix : ∃ m, SuffixLeaves self.nameSuffix t m
    · obtain ⟨m, hm⟩ := hsuffix
      exact ⟨t, m, ht, hm⟩
    · rcases hcase with hnone | ⟨_, hstar⟩
      · exact absurd (hnone ▸ ⟨t, .unset t⟩) hsuffix
      · obtain ⟨x, hx, _⟩ := ht.exists_affix
        have hcut := ht.cut
        have hlinet : '\n' ∉ t := fun hn => hline (hx ▸ List.mem_append_right x hn)
        rw [← hcut] at hsuffix hlinet
        obtain ⟨hnoEnding, hlt⟩ := of_not_suffixLeaves hlinet hplainSuffix hsuffix
        rw [hcut] at hlt
        -- no suffix goes, so it is a prefix that does, and a longer one than was cut
        have hs' : s = [] := by
          have hlinex : '\n' ∉ x := fun hn => hline (hx ▸ List.mem_append_left t hn)
          exact hnoEnding x s _ hlinex hs (by rw [hcut, ← hx]; exact hname)
        rw [hs', List.append_nil] at hname
        have hle := ht.length_le hline hplainPrefix hstar hp hname
        omega
  · rcases hcase with hnone | ⟨hexists, _⟩
    · obtain ⟨hnoBeginning, hlt⟩ := of_not_prefixLeaves hline hplainPrefix hprefix
      rw [hnone] at hs hname
      rw [isAffix_none hs, List.append_nil] at hname
      rw [hnoBeginning p _ hp hname, List.nil_append] at hname
      exact absurd (congrArg List.length hname) (Nat.ne_of_gt hlt)
    · exact absurd hexists hprefix

/-! ## The override -/

/-- Affixes that literally stand around a name are taken off it. -/
theorem name_override_of_literal {self : KustomizePattern} {ref : ResourceRef} {n : String}
    (h : ref.name = self.namePrefix.getD "" ++ n ++ self.nameSuffix.getD "") :
    (self.override ref).name = n := by
  have hname : ref.name.toList =
      (self.namePrefix.getD "").toList ++ (n.toList ++ (self.nameSuffix.getD "").toList) := by
    rw [h, String.toList_append, String.toList_append, List.append_assoc]
  have hprefix : PrefixLeaves self.namePrefix ref.name.toList
      (n.toList ++ (self.nameSuffix.getD "").toList) := by
    rw [hname]
    cases self.namePrefix with
    | none => exact .unset _
    | some namePrefix => exact .literal namePrefix _
  have hsuffix : SuffixLeaves self.nameSuffix (n.toList ++ (self.nameSuffix.getD "").toList)
      n.toList := by
    cases self.nameSuffix with
    | none => exact (List.append_nil n.toList).symm ▸ .unset _
    | some nameSuffix => exact .literal nameSuffix _
  rw [← hprefix.cut] at hsuffix
  refine String.toList_inj.1 ?_
  rw [name_override, hsuffix.cut]

/-- **What an override takes off a name.**  Affixes that literally stand around a name are taken
off.  Clean cuts take off a prefix and a suffix; and on one line, for plain affixes, only those do,
where the cuts of the two affixes cannot make up for one another. -/
theorem override_strips_affixes (self : KustomizePattern) (ref : ResourceRef) :
    (∀ n, ref.name = self.namePrefix.getD "" ++ n ++ self.nameSuffix.getD "" →
      (self.override ref).name = n) ∧
    (CleanAffixes self ref.name → StripsAffixes self ref.name (self.override ref).name) ∧
    (PlainAffixes self → '\n' ∉ ref.name.toList →
      (self.nameSuffix = none ∨ (∃ t, PrefixLeaves self.namePrefix ref.name.toList t) ∧
        ∀ p, self.namePrefix = some p → '*' ∈ p.toList → ¬p.toList <+: ref.name.toList) →
      (StripsAffixes self ref.name (self.override ref).name ↔ CleanAffixes self ref.name)) :=
  ⟨fun _ => name_override_of_literal, stripsAffixes_of_clean, fun hplain hline hcase =>
    ⟨clean_of_stripsAffixes hplain hline hcase, stripsAffixes_of_clean⟩⟩

end

/-- A prefix is cut out of the middle: `dev*-` turns `app-dev1-db` into `app-db`. -/
theorem override_cuts_middle :
    letI := Regexp.UnicodeTables.empty
    ∃ (self : KustomizePattern) (ref : ResourceRef), self.namePrefix = some "dev*-" ∧
      self.nameSuffix = none ∧ ref.name = "app-dev1-db" ∧ (self.override ref).name = "app-db" ∧
      ¬StripsAffixes self ref.name (self.override ref).name := by
  let _ := Regexp.UnicodeTables.empty
  have hname : (KustomizePattern.override { namePrefix := some "dev*-" }
      ⟨"app-dev1-db", "", "", ""⟩).name = "app-db" := by decide +kernel
  refine ⟨{ namePrefix := some "dev*-" }, ⟨"app-dev1-db", "", "", ""⟩, rfl, rfl, rfl, hname, ?_⟩
  rw [hname]
  rintro ⟨p, s, happ, _, hs⟩
  rw [isAffix_none hs, List.append_nil] at happ
  have hends : "app-db".toList <:+ "app-dev1-db".toList := ⟨p, happ.symm⟩
  exact absurd hends (by decide)

end Common
end IntegrityShield
