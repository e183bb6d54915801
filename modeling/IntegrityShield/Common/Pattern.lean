/-
# Patterns

`shield/pkg/common/pattern.go`: the patterns of profiles, policies and
selectors.  A pattern is trimmed, an empty one and `*` match everything, `-`
matches the empty value, a trailing `*` asks for a prefix, and a comma separates
alternatives.  The parts of a pattern at its commas hold no comma, so
`MatchPattern` calls itself at most once more (`matchPattern_eq`).

A comma list is split last, after the questions about a single pattern have been put to the
list as a whole: `matchPattern_splitRule_iff` says when it still is the union of its elements.
-/

import IntegrityShield.Base.Fault
import IntegrityShield.Base.Strings

namespace IntegrityShield
namespace Common

/-- `SplitRule`. -/
def splitRule (rules : String) : List String := (Strings.split rules ',').map Strings.trimSpace

/-- The body of `MatchPattern`, with the match of a part at a comma. -/
def matchPatternBy (matchPart : String → Bool) (pattern value : String) : Bool :=
  let pattern := Strings.trimSpace pattern
  if pattern = "" then true
  else if pattern = "*" then true
  else if pattern = "-" ∧ value = "" then true
  else if Strings.hasSuffix pattern "*" then
    Strings.hasPrefix value (Strings.trimRight pattern "*")
  else if pattern = value then true
  else if Strings.contains pattern "," then (splitRule pattern).any matchPart
  else false

/-- `MatchPattern`. -/
def matchPattern (pattern value : String) : Bool :=
  matchPatternBy (fun part => matchPatternBy (fun _ => false) part value) pattern value

/-- `ExactMatch`. -/
def exactMatch (pattern value : String) : Bool := pattern == value

/-- `ExactMatchWithPatternArray`. -/
def exactMatchWithPatternArray (value : String) (patternArray : List String) : Bool :=
  patternArray.any fun pattern => exactMatch pattern value

/-- `MatchPatternWithArray`. -/
def matchPatternWithArray (pattern : String) (valueArray : List String) : Bool :=
  valueArray.any fun value => matchPattern pattern value

/-- `MatchWithPatternArray`. -/
def matchWithPatternArray (value : String) (patternArray : List String) : Bool :=
  patternArray.any fun pattern => matchPattern pattern value

/-- `GetUnionOfArrays`. -/
def getUnionOfArrays (array1 array2 : List String) : List String :=
  (array1 ++ array2).foldl
    (fun newArray val =>
      if exactMatchWithPatternArray val newArray then newArray else newArray ++ [val]) []

/-- The value of hexadecimal digits, most significant first. -/
def hexNat (ds : List Char) : Option ℕ :=
  if ds = [] then none
  else ds.foldl (fun n c => n.bind fun n =>
    if c.isDigit then some (16 * n + (c.toNat - '0'.toNat))
    else if 'a' ≤ c ∧ c ≤ 'f' then some (16 * n + (c.toNat - 'a'.toNat + 10))
    else if 'A' ≤ c ∧ c ≤ 'F' then some (16 * n + (c.toNat - 'A'.toNat + 10))
    else none) (some 0)

/-- `big.Int.SetString(s, 16)`; what it leaves behind when it fails is undefined,
and here an argument. -/
def setString16 (undefined : String → ℤ) (s : String) : ℤ :=
  let value := match s.toList with
    | '-' :: ds => (hexNat ds).map fun n => -(n : ℤ)
    | '+' :: ds => (hexNat ds).map fun n => (n : ℤ)
    | ds => (hexNat ds).map fun n => (n : ℤ)
  value.getD (undefined s)

/-- `pattern2BigInt`. -/
def pattern2BigInt (undefined : String → ℤ) (pattern : String) : ℤ :=
  setString16 undefined (Strings.replaceAll pattern ":" "")

/-- `MatchBigInt`.  A nil number is dereferenced by `Cmp` and by `Int64`. -/
def matchBigInt (undefined : String → ℤ) (pattern : String) (value : Option ℤ) : Go Bool :=
  let pattern := Strings.trimSpace pattern
  if pattern = "" then .ok true
  else if pattern = "*" then .ok true
  else if pattern = "-" ∧ value = none then .ok true
  else if Strings.contains pattern ":" then do
    let value ← Go.deref value
    return pattern2BigInt undefined pattern == value
  else match Strings.atoi pattern with
    | (i, none) => do
        let value ← Go.deref value
        return i == value.bmod (2 ^ 64)
    | (_, some _) => .ok false

theorem trimSpace_subset (s : String) : (Strings.trimSpace s).toList ⊆ s.toList := by
  intro c hc
  rw [Strings.trimSpace, Strings.trimFunc, String.toList_ofList] at hc
  exact (List.dropWhile_sublist _).subset ((List.rdropWhile_prefix _ _).subset hc)

/-- A part at a comma holds no comma. -/
theorem contains_comma_of_mem_splitRule {rules part : String} (h : part ∈ splitRule rules) :
    Strings.contains (Strings.trimSpace part) "," = false := by
  obtain ⟨s, hs, rfl⟩ := List.mem_map.1 h
  obtain ⟨l, hl, rfl⟩ := List.mem_map.1 hs
  rw [← Bool.not_eq_true, Strings.contains_iff]
  intro hin
  have hmem : ',' ∈ (Strings.trimSpace (Strings.trimSpace (String.ofList l))).toList :=
    hin.subset (List.mem_cons_self ..)
  have hmem' := trimSpace_subset _ (trimSpace_subset _ hmem)
  rw [String.toList_ofList] at hmem'
  exact (Strings.mem_of_mem_splitOn hl hmem').2 rfl

/-- A pattern without a comma is matched without its parts. -/
theorem matchPatternBy_congr {pattern : String} (value : String)
    (h : Strings.contains (Strings.trimSpace pattern) "," = false) (f g : String → Bool) :
    matchPatternBy f pattern value = matchPatternBy g pattern value := by
  simp only [matchPatternBy, h, Bool.false_eq_true, if_false]

/-- **The source's recursion**: a part is matched like the pattern itself. -/
theorem matchPattern_eq (pattern value : String) :
    matchPattern pattern value =
      matchPatternBy (fun part => matchPattern part value) pattern value := by
  have hparts : ∀ rules : String,
      (splitRule rules).any (fun part => matchPatternBy (fun _ => false) part value) =
        (splitRule rules).any fun part => matchPattern part value := by
    intro rules
    have hpart : ∀ part ∈ splitRule rules,
        matchPatternBy (fun _ => false) part value = matchPattern part value := fun part h =>
      matchPatternBy_congr value (contains_comma_of_mem_splitRule h) _ _
    rw [Bool.eq_iff_iff, List.any_eq_true, List.any_eq_true]
    exact exists_congr fun part => and_congr_right fun h => by rw [hpart part h]
  rw [matchPattern, matchPatternBy, matchPatternBy]
  simp only [hparts]

/-- A pattern that stands for itself: it is not empty, has no blanks around it,
no star at its end and no comma. -/
def IsLiteral (pattern : String) : Prop :=
  Strings.trimSpace pattern = pattern ∧ pattern ≠ "" ∧ Strings.hasSuffix pattern "*" = false ∧
    Strings.contains pattern "," = false

instance (pattern : String) : Decidable (IsLiteral pattern) :=
  inferInstanceAs (Decidable (_ ∧ _))

/-- A literal pattern matches itself alone, and `-` also the empty value. -/
theorem eq_of_matchPattern_literal {pattern value : String} (h : IsLiteral pattern)
    (hmatch : matchPattern pattern value = true) :
    value = pattern ∨ pattern = "-" ∧ value = "" := by
  obtain ⟨htrim, hne, hstar, hcomma⟩ := h
  have hstar' : pattern ≠ "*" := by
    rintro rfl
    revert hstar
    decide
  rw [matchPattern, matchPatternBy] at hmatch
  simp only [htrim, hne, hstar', hstar, hcomma, if_false, Bool.false_eq_true] at hmatch
  split_ifs at hmatch with hdash heq
  · exact .inr hdash
  · exact .inl heq.symm

/-- Every pattern matches some value that is not empty: itself without the blanks,
or a value as long as wanted. -/
theorem exists_matchPatternBy (pattern other : String) :
    ∃ value, value ≠ "" ∧ (∀ matchPart, matchPatternBy matchPart pattern value = true) ∧
      (other.length < value.length ∨
        value = Strings.trimSpace pattern ∧
          Strings.hasSuffix (Strings.trimSpace pattern) "*" = false) := by
  have hlong : ∀ start : String, other.length < (start ++ (other ++ "x")).length := by
    intro start
    simp only [String.length_append]
    have : ("x" : String).length = 1 := rfl
    omega
  have hne : ∀ {value : String}, other.length < value.length → value ≠ "" := by
    rintro value hlt rfl
    exact absurd hlt (Nat.not_lt_zero _)
  by_cases hempty : Strings.trimSpace pattern = ""
  · refine ⟨"" ++ (other ++ "x"), hne (hlong ""), fun matchPart => ?_, .inl (hlong "")⟩
    rw [matchPatternBy, if_pos hempty]
  by_cases hstar : Strings.hasSuffix (Strings.trimSpace pattern) "*" = true
  · let start := Strings.trimRight (Strings.trimSpace pattern) "*"
    refine ⟨start ++ (other ++ "x"), hne (hlong start), fun matchPart => ?_, .inl (hlong start)⟩
    have hprefix : Strings.hasPrefix (start ++ (other ++ "x")) start = true := by
      rw [Strings.hasPrefix_iff, String.toList_append]
      exact List.prefix_append ..
    rw [matchPatternBy]
    simp only [hempty, if_false, hstar, if_true]
    split_ifs
    · rfl
    · rfl
    · exact hprefix
  · rw [Bool.not_eq_true] at hstar
    refine ⟨Strings.trimSpace pattern, hempty, fun matchPart => ?_, .inr ⟨rfl, hstar⟩⟩
    rw [matchPatternBy]
    simp only [hempty, hstar, Bool.false_eq_true, if_false, if_true, ite_self]

/-- **A pattern that is no literal matches other values.** -/
theorem exists_match_of_not_literal {pattern : String} (h : ¬IsLiteral pattern) :
    ∃ value, value ≠ pattern ∧ value ≠ "" ∧ matchPattern pattern value = true := by
  have hlonger : ∀ {value : String}, pattern.length < value.length → value ≠ pattern := by
    rintro value hlt rfl
    exact absurd hlt (Nat.lt_irrefl _)
  obtain ⟨value, hne, hmatch, hlong | ⟨rfl, hstar⟩⟩ := exists_matchPatternBy pattern pattern
  · exact ⟨value, hlonger hlong, hne, hmatch _⟩
  by_cases htrim : Strings.trimSpace pattern = pattern
  · rw [htrim] at hne hstar
    have hcomma : Strings.contains pattern "," = true := by
      by_contra hno
      exact h ⟨htrim, hne, hstar, Bool.eq_false_iff.2 hno⟩
    -- every part at a comma matches something, and holds no comma itself
    obtain ⟨part, hpart⟩ := List.exists_mem_of_ne_nil (splitRule pattern) (by
      simp [splitRule, Strings.split, List.splitOn_ne_nil])
    obtain ⟨value, hvalue, hmatch, hother⟩ := exists_matchPatternBy part pattern
    refine ⟨value, ?_, hvalue, ?_⟩
    · rcases hother with hlong | ⟨rfl, _⟩
      · exact hlonger hlong
      · intro heq
        have hno := contains_comma_of_mem_splitRule hpart
        rw [heq, hcomma] at hno
        cases hno
    · have hany : (splitRule pattern).any
          (fun part => matchPatternBy (fun _ => false) part value) = true :=
        List.any_eq_true.2 ⟨part, hpart, hmatch _⟩
      rw [matchPattern, matchPatternBy]
      simp only [htrim, hne, hstar, hcomma, hany, Bool.false_eq_true, if_false, if_true, ite_self]
  · exact ⟨_, htrim, hne, hmatch _⟩

theorem exists_matchPattern (pattern : String) : ∃ value, matchPattern pattern value = true := by
  obtain ⟨value, _, hmatch, _⟩ := exists_matchPatternBy pattern ""
  exact ⟨value, hmatch _⟩

/-- A pattern that is no literal, or is `-`, matches another value than itself. -/
theorem exists_other_match {pattern : String} (h : ¬(IsLiteral pattern ∧ pattern ≠ "-")) :
    ∃ value, value ≠ pattern ∧ matchPattern pattern value = true := by
  by_cases hliteral : IsLiteral pattern
  · obtain rfl : pattern = "-" := by
      by_contra hne
      exact h ⟨hliteral, hne⟩
    exact ⟨"", by decide, by decide +kernel⟩
  · obtain ⟨value, hne, _, hmatch⟩ := exists_match_of_not_literal hliteral
    exact ⟨value, hne, hmatch⟩

/-- Any other pattern matches itself alone. -/
theorem eq_of_matchPattern {pattern value : String} (h : IsLiteral pattern ∧ pattern ≠ "-")
    (hmatch : matchPattern pattern value = true) : value = pattern := by
  rcases eq_of_matchPattern_literal h.1 hmatch with heq | ⟨hdash, _⟩
  · exact heq
  · exact absurd hdash h.2

theorem exactMatchWithPatternArray_iff (value : String) (patternArray : List String) :
    exactMatchWithPatternArray value patternArray = true ↔ value ∈ patternArray := by
  simp [exactMatchWithPatternArray, exactMatch]

/-- The union holds what either array holds. -/
theorem mem_getUnionOfArrays (array1 array2 : List String) (val : String) :
    val ∈ getUnionOfArrays array1 array2 ↔ val ∈ array1 ∨ val ∈ array2 := by
  have hfold : ∀ (l acc : List String),
      val ∈ l.foldl (fun newArray val =>
        if exactMatchWithPatternArray val newArray then newArray else newArray ++ [val]) acc ↔
        val ∈ acc ∨ val ∈ l := by
    intro l
    induction l with
    | nil => intro acc; simp
    | cons x rest ih =>
        intro acc
        rw [List.foldl_cons, ih]
        by_cases hx : exactMatchWithPatternArray x acc = true
        · have hmem := (exactMatchWithPatternArray_iff x acc).1 hx
          rw [if_pos hx]
          constructor
          · rintro (h | h)
            · exact Or.inl h
            · exact Or.inr (List.mem_cons_of_mem _ h)
          · rintro (h | h)
            · exact Or.inl h
            · rcases List.mem_cons.1 h with rfl | h
              · exact Or.inl hmem
              · exact Or.inr h
        · rw [if_neg hx, List.mem_append, List.mem_singleton, List.mem_cons]
          tauto
  rw [getUnionOfArrays, hfold, List.mem_append]
  simp

/-! ## Comma lists -/

/-- The elements of a list are those of the trimmed list. -/
theorem splitRule_trimSpace (rules : String) :
    splitRule (Strings.trimSpace rules) = splitRule rules :=
  Strings.map_trimFunc_split (by decide) rules

theorem matchPattern_trimSpace (pattern value : String) :
    matchPattern (Strings.trimSpace pattern) value = matchPattern pattern value := by
  rw [matchPattern, matchPatternBy, matchPattern, matchPatternBy, Strings.trimSpace_trimSpace]

theorem splitRule_of_no_comma {pattern : String}
    (h : ¬Strings.contains (Strings.trimSpace pattern) "," = true) :
    splitRule pattern = [Strings.trimSpace pattern] := by
  have hsplit := Strings.split_of_not_mem fun hc => h ((Strings.contains_char_iff _ ',').2 hc)
  rw [← splitRule_trimSpace, splitRule, hsplit, List.map_singleton, Strings.trimSpace_trimSpace]

/-- A list is asked for a star at its end and compared as a whole before it is split. -/
theorem matchPattern_of_comma {pattern : String}
    (h : Strings.contains (Strings.trimSpace pattern) "," = true) (value : String) :
    matchPattern pattern value =
      if Strings.hasSuffix (Strings.trimSpace pattern) "*" then
        Strings.hasPrefix value (Strings.trimRight (Strings.trimSpace pattern) "*")
      else if Strings.trimSpace pattern = value then true
      else (splitRule pattern).any fun element => matchPattern element value := by
  have hne : ∀ other, Strings.contains other "," = false → Strings.trimSpace pattern ≠ other := by
    rintro other hother rfl
    rw [h] at hother
    cases hother
  rw [matchPattern_eq, matchPatternBy]
  simp only [hne "" (by decide), hne "*" (by decide), hne "-" (by decide), false_and, if_false, h,
    if_true, splitRule_trimSpace]

/-- What an element of a list stands for: everything if it is empty, the empty value too if it is
`-`, what begins like it if it ends in a star, and itself otherwise. -/
def ElementMatches (element value : String) : Prop :=
  element = "" ∨ element = "-" ∧ value = "" ∨
    if Strings.hasSuffix element "*" = true then
      Strings.hasPrefix value (Strings.trimRight element "*") = true
    else value = element

theorem matchPattern_element_iff {pattern element : String} (h : element ∈ splitRule pattern)
    (value : String) : matchPattern element value = true ↔ ElementMatches element value := by
  have htrim : Strings.trimSpace element = element := by
    obtain ⟨s, _, rfl⟩ := List.mem_map.1 h
    exact Strings.trimSpace_trimSpace s
  have hcomma := contains_comma_of_mem_splitRule h
  rw [htrim] at hcomma
  rw [matchPattern, matchPatternBy, htrim, ElementMatches]
  simp only [hcomma, Bool.false_eq_true, if_false]
  by_cases hempty : element = ""
  · simp [hempty]
  by_cases hall : element = "*"
  · subst hall
    have hprefix : Strings.hasPrefix value (Strings.trimRight "*" "*") = true :=
      (Strings.hasPrefix_iff _ _).2 List.nil_prefix
    have hstar : Strings.hasSuffix "*" "*" = true := by decide
    simp only [hempty, if_false, if_true, hstar, hprefix, or_true]
  · rw [if_neg hempty, if_neg hall, or_iff_right hempty]
    by_cases hdash : element = "-" ∧ value = ""
    · rw [if_pos hdash]
      exact iff_of_true rfl (Or.inl hdash)
    · rw [if_neg hdash, or_iff_right hdash]
      split_ifs with hstar hvalue
      · rfl
      · exact iff_of_true rfl hvalue.symm
      · exact iff_of_false not_false (Ne.symm hvalue)

/-- **When a comma list is the union of its elements.**  A list that ends in a star asks the
value to begin with the whole list, up to its trailing stars; that must be so exactly if some
element matches.  Any other list also matches itself as a whole, and some element has to, too. -/
theorem matchPattern_splitRule_iff (pattern value : String) :
    (matchPattern pattern value = true ↔
        ∃ element ∈ splitRule pattern, matchPattern element value = true) ↔
      (Strings.contains (Strings.trimSpace pattern) "," = true →
        if Strings.hasSuffix (Strings.trimSpace pattern) "*" = true then
          (Strings.hasPrefix value (Strings.trimRight (Strings.trimSpace pattern) "*") = true ↔
            ∃ element ∈ splitRule pattern, ElementMatches element value)
        else
          value = Strings.trimSpace pattern →
            ∃ element ∈ splitRule pattern, ElementMatches element value) := by
  have helements : (∃ element ∈ splitRule pattern, ElementMatches element value) ↔
      ∃ element ∈ splitRule pattern, matchPattern element value = true :=
    exists_congr fun element => and_congr_right fun h => (matchPattern_element_iff h value).symm
  by_cases hcomma : Strings.contains (Strings.trimSpace pattern) "," = true
  · rw [matchPattern_of_comma hcomma, imp_iff_right hcomma, helements]
    split_ifs with hstar hvalue
    · rfl
    · exact ⟨fun h _ => h.1 rfl, fun h => iff_of_true rfl (h hvalue.symm)⟩
    · rw [List.any_eq_true]
      exact iff_of_true Iff.rfl fun h => absurd h.symm hvalue
  · refine iff_of_true ?_ hcomma.elim
    rw [splitRule_of_no_comma hcomma]
    simp only [List.mem_singleton, exists_eq_left, matchPattern_trimSpace]

/-- Neither element of `default,kube-*` is matched any more. -/
theorem matchPattern_star_at_end :
    splitRule "default,kube-*" = ["default", "kube-*"] ∧
      matchPattern "default" "default" = true ∧
      matchPattern "default,kube-*" "default" = false ∧
      matchPattern "kube-*" "kube-system" = true ∧
      matchPattern "default,kube-*" "kube-system" = false := by
  decide +kernel

end Common
end IntegrityShield
