/-
# Go's `strings` and `strconv`, as far as keys and patterns use them

A Go string is a Lean `String`; every function below reads it through
`String.toList`, so that a proof about a key is a proof about a list of
characters.  Both order strings by their code points, and neither side ever
holds malformed UTF-8: the strings of the program come out of a JSON decoder.

`strings.Split` with a one-character separator is `List.splitOn`,
`strings.Join` is `List.intercalate`; the two are inverse to each other in
Mathlib, which is what `split_join` and `join_split` restate for strings.
-/

import Mathlib.Data.List.DropRight
import Mathlib.Data.List.Infix
import Mathlib.Data.Nat.Digits.Defs
import Mathlib.Tactic.Common

namespace IntegrityShield
namespace Strings

/-- `strings.Contains`. -/
def contains (s sub : String) : Bool := decide (sub.toList <:+: s.toList)

/-- `strings.HasPrefix`. -/
def hasPrefix (s p : String) : Bool := p.toList.isPrefixOf s.toList

/-- `strings.HasSuffix`. -/
def hasSuffix (s p : String) : Bool := p.toList.isSuffixOf s.toList

/-- `strings.Split` at a one-character separator. -/
def split (s : String) (sep : Char) : List String := (s.toList.splitOn sep).map String.ofList

/-- `strings.Join`. -/
def join (parts : List String) (sep : String) : String :=
  String.ofList (sep.toList.intercalate (parts.map String.toList))

/-- `strings.TrimFunc`. -/
def trimFunc (s : String) (p : Char → Bool) : String :=
  String.ofList ((s.toList.dropWhile p).rdropWhile p)

/-- `strings.Trim`: the characters of `cutset` off both ends. -/
def trim (s cutset : String) : String := trimFunc s fun c => cutset.toList.contains c

/-- `strings.TrimRight`. -/
def trimRight (s cutset : String) : String :=
  String.ofList (s.toList.rdropWhile fun c => cutset.toList.contains c)

/-- `strings.TrimSuffix`. -/
def trimSuffix (s suffix : String) : String :=
  if hasSuffix s suffix then String.ofList (s.toList.take (s.length - suffix.length)) else s

/-- `unicode.IsSpace`. -/
def isSpace (c : Char) : Bool :=
  (9 ≤ c.toNat && c.toNat ≤ 13) ||
    [0x20, 0x85, 0xA0, 0x1680, 0x2028, 0x2029, 0x202F, 0x205F, 0x3000].contains c.toNat ||
    (0x2000 ≤ c.toNat && c.toNat ≤ 0x200A)

/-- `strings.TrimSpace`. -/
def trimSpace (s : String) : String := trimFunc s isSpace

/-- `strings.ReplaceAll` on characters, scanning from the left; `fuel` counts
the characters still to read. -/
def replaceAux (old new : List Char) : ℕ → List Char → List Char
  | 0, s => s
  | _ + 1, [] => []
  | fuel + 1, c :: s =>
      if old.isPrefixOf (c :: s) then new ++ replaceAux old new fuel ((c :: s).drop old.length)
      else c :: replaceAux old new fuel s

/-- `strings.ReplaceAll`, for a non-empty `old`. -/
def replaceAll (s old new : String) : String :=
  String.ofList (replaceAux old.toList new.toList s.length s.toList)

/-- `strconv.Itoa` of a list index. -/
def itoa (n : ℕ) : String := n.repr

/-- Why `strconv.Atoi` failed. -/
inductive NumError where
  | invalid
  | range
deriving DecidableEq, Repr

/-- The value of a non-empty string of decimal digits. -/
def digits (ds : List Char) : Option ℕ :=
  if ds ≠ [] ∧ ds.all Char.isDigit then
    some (ds.foldl (fun n c => 10 * n + (c.toNat - '0'.toNat)) 0)
  else none

/-- `strconv.Atoi` on a 64-bit machine: the value, and the error if there is
one.  Out of range the value saturates, on a syntax error it is `0`. -/
def atoi (s : String) : ℤ × Option NumError :=
  match s.toList with
  | '-' :: ds =>
      match digits ds with
      | some n => if n ≤ 2 ^ 63 then (-(n : ℤ), none) else (-2 ^ 63, some .range)
      | none => (0, some .invalid)
  | cs =>
      match digits (if cs.head? = some '+' then cs.tail else cs) with
      | some n => if n < 2 ^ 63 then (n, none) else (2 ^ 63 - 1, some .range)
      | none => (0, some .invalid)

/-- Splitting what was joined gives the parts back, when there is one and none
of them holds the separator. -/
theorem split_join {parts : List String} {sep : Char} (hne : parts ≠ [])
    (hsep : ∀ p ∈ parts, sep ∉ p.toList) :
    split (join parts (String.ofList [sep])) sep = parts := by
  unfold split join
  rw [String.toList_ofList, String.toList_ofList, List.splitOn_intercalate]
  · simp
  · intro l hl
    obtain ⟨p, hp, rfl⟩ := List.mem_map.1 hl
    exact hsep p hp
  · simpa using hne

/-- Joining what was split gives the string back. -/
theorem join_split (s : String) (sep : Char) : join (split s sep) (String.ofList [sep]) = s := by
  unfold split join
  rw [String.toList_ofList, List.map_map, show String.toList ∘ String.ofList = id from
    funext fun l => String.toList_ofList, List.map_id, List.intercalate_splitOn,
    String.ofList_toList]

theorem intercalate_concat {sep x : List Char} {l : List (List Char)} (h : l ≠ []) :
    sep.intercalate (l ++ [x]) = sep.intercalate l ++ sep ++ x := by
  induction l with
  | nil => exact absurd rfl h
  | cons y rest ih =>
      cases rest with
      | nil => simp
      | cons z rest =>
          rw [List.cons_append, List.cons_append, List.intercalate_cons_cons, ← List.cons_append,
            ih (List.cons_ne_nil _ _), List.intercalate_cons_cons]
          simp

theorem join_concat {parts : List String} (h : parts ≠ []) (x sep : String) :
    join (parts ++ [x]) sep = join parts sep ++ sep ++ x := by
  refine String.toList_inj.1 ?_
  rw [join, String.toList_ofList, List.map_append, List.map_singleton,
    intercalate_concat (by simpa using h)]
  simp [join]

/-- The characters of a part are characters of the whole, and not the
separator. -/
theorem mem_of_mem_splitOn {sep c : Char} {l p : List Char} (h : p ∈ l.splitOn sep) (hc : c ∈ p) :
    c ∈ l ∧ c ≠ sep := by
  induction l generalizing p with
  | nil =>
      rw [List.splitOn_nil, List.mem_singleton] at h
      subst h
      cases hc
  | cons d rest ih =>
      rw [List.splitOn_cons_eq_if_modifyHead] at h
      obtain ⟨q, qs, hq⟩ := List.exists_cons_of_ne_nil (List.splitOn_ne_nil sep rest)
      rw [hq] at h ih
      have hrest : ∀ p ∈ q :: qs, c ∈ p → c ∈ d :: rest ∧ c ≠ sep := fun p hp hc =>
        (ih hp hc).imp_left (List.mem_cons_of_mem d)
      split at h
      · rcases List.mem_cons.1 h with rfl | h
        · cases hc
        · exact hrest p h hc
      · rename_i hd
        rw [List.modifyHead_cons] at h
        rcases List.mem_cons.1 h with rfl | h
        · rcases List.mem_cons.1 hc with rfl | hc
          · exact ⟨List.mem_cons_self, fun hsep => hd (beq_iff_eq.2 hsep)⟩
          · exact hrest q List.mem_cons_self hc
        · exact hrest p (List.mem_cons_of_mem q h) hc

/-- The characters of a joined text. -/
theorem mem_of_mem_join {parts : List String} {sep : String} {c : Char}
    (h : c ∈ (join parts sep).toList) : c ∈ sep.toList ∨ ∃ p ∈ parts, c ∈ p.toList := by
  rw [join, String.toList_ofList] at h
  induction parts with
  | nil => exact absurd h List.not_mem_nil
  | cons p rest ih =>
      cases rest with
      | nil =>
          rw [List.map_singleton, List.intercalate_singleton] at h
          exact Or.inr ⟨p, List.mem_cons_self, h⟩
      | cons q rest =>
          rw [List.map_cons, List.map_cons, List.intercalate_cons_cons, ← List.map_cons] at h
          rcases List.mem_append.1 h with h | h
          · rcases List.mem_append.1 h with h | h
            · exact Or.inr ⟨p, List.mem_cons_self, h⟩
            · exact Or.inl h
          · obtain hsep | ⟨r, hr, hc⟩ := ih h
            · exact Or.inl hsep
            · exact Or.inr ⟨r, List.mem_cons_of_mem p hr, hc⟩

/-- Splitting at a separator between two texts. -/
theorem split_append (s t : String) (sep : Char) :
    split (s ++ String.ofList [sep] ++ t) sep = split s sep ++ split t sep := by
  rw [split, split, split, ← List.map_append, String.toList_append, String.toList_append,
    String.toList_ofList, List.append_assoc, List.singleton_append]
  exact congrArg _ (List.splitOnP_append_cons _ _ (beq_self_eq_true sep))

theorem join_cons {parts : List String} (h : parts ≠ []) (x sep : String) :
    join (x :: parts) sep = x ++ sep ++ join parts sep := by
  obtain ⟨y, rest, rfl⟩ := List.exists_cons_of_ne_nil h
  refine String.toList_inj.1 ?_
  rw [join, String.toList_ofList, List.map_cons, List.map_cons, List.intercalate_cons_cons]
  simp [join]

/-- The characters of the parts are in the joined text. -/
theorem mem_join {parts : List String} {sep p : String} {c : Char} (hp : p ∈ parts)
    (hc : c ∈ p.toList) : c ∈ (join parts sep).toList := by
  induction parts with
  | nil => exact absurd hp List.not_mem_nil
  | cons q rest ih =>
      by_cases hrest : rest = []
      · subst hrest
        rw [List.mem_singleton.1 hp] at hc
        simpa [join] using hc
      · rw [join_cons hrest, String.toList_append, String.toList_append]
        rcases List.mem_cons.1 hp with rfl | hp
        · exact List.mem_append_left _ (List.mem_append_left _ hc)
        · exact List.mem_append_right _ (ih hp)

/-- Splitting what was joined splits the parts. -/
theorem split_join_eq_flatMap {parts : List String} (hne : parts ≠ []) (sep : Char) :
    split (join parts (String.ofList [sep])) sep = parts.flatMap fun p => split p sep := by
  induction parts with
  | nil => exact absurd rfl hne
  | cons p rest ih =>
      by_cases hrest : rest = []
      · subst hrest
        simp [join]
      · rw [join_cons hrest, split_append, ih hrest, List.flatMap_cons]

/-- The occurrences of a character in a joined text are those in the parts. -/
theorem count_join {sep : String} {c : Char} (hc : c ∉ sep.toList) (parts : List String) :
    (join parts sep).toList.count c = (parts.map fun p => p.toList.count c).sum := by
  induction parts with
  | nil => rfl
  | cons p rest ih =>
      by_cases hrest : rest = []
      · subst hrest
        simp [join]
      · rw [join_cons hrest, String.toList_append, String.toList_append, List.count_append,
          List.count_append, List.count_eq_zero_of_not_mem hc, ih, List.map_cons, List.sum_cons,
          Nat.add_zero]

/-- Taking out a text leaves the rest in order. -/
theorem replaceAll_empty_sublist (s old : String) :
    (replaceAll s old "").toList.Sublist s.toList := by
  have haux : ∀ (fuel : ℕ) (l : List Char), (replaceAux old.toList [] fuel l).Sublist l := by
    intro fuel
    induction fuel with
    | zero => exact fun l => List.Sublist.refl l
    | succ fuel ih =>
        intro l
        cases l with
        | nil => exact List.Sublist.refl []
        | cons d rest =>
            rw [replaceAux]
            split
            · exact (ih _).trans (List.drop_sublist _ _)
            · exact (ih rest).cons_cons d
  rw [replaceAll, String.toList_ofList]
  exact haux _ _

/-- Taking out a text adds no characters. -/
theorem mem_of_mem_replaceAll_empty {s old : String} {c : Char}
    (h : c ∈ (replaceAll s old "").toList) : c ∈ s.toList :=
  (replaceAll_empty_sublist s old).subset h

/-- Taking out a text keeps the characters it does not have. -/
theorem mem_replaceAll_empty {s old : String} {c : Char} (hc : c ∉ old.toList)
    (h : c ∈ s.toList) : c ∈ (replaceAll s old "").toList := by
  have haux : ∀ (fuel : ℕ) (l : List Char), c ∈ l → c ∈ replaceAux old.toList [] fuel l := by
    intro fuel
    induction fuel with
    | zero => exact fun l hl => hl
    | succ fuel ih =>
        intro l hl
        cases l with
        | nil => exact hl
        | cons d rest =>
            rw [replaceAux]
            split
            · rename_i hprefix
              obtain ⟨more, hmore⟩ := List.isPrefixOf_iff_prefix.1 hprefix
              rw [← hmore, List.drop_left, List.nil_append]
              rw [← hmore] at hl
              exact ih _ ((List.mem_append.1 hl).resolve_left hc)
            · rcases List.mem_cons.1 hl with rfl | hl
              · exact List.mem_cons_self
              · exact List.mem_cons_of_mem d (ih rest hl)
  rw [replaceAll, String.toList_ofList]
  exact haux _ _ h

/-- Replacing one character by a text, character by character. -/
theorem replaceAll_char (s : String) (c : Char) (new : String) :
    (replaceAll s (String.ofList [c]) new).toList =
      s.toList.flatMap fun d => if d = c then new.toList else [d] := by
  have haux : ∀ (fuel : ℕ) (l : List Char), l.length ≤ fuel →
      replaceAux [c] new.toList fuel l = l.flatMap fun d => if d = c then new.toList else [d] := by
    intro fuel
    induction fuel with
    | zero =>
        intro l hl
        rw [List.length_eq_zero_iff.1 (Nat.le_zero.1 hl)]
        rfl
    | succ fuel ih =>
        intro l hl
        cases l with
        | nil => rfl
        | cons d rest =>
            have hrest := ih rest (Nat.le_of_succ_le_succ hl)
            rw [replaceAux, List.flatMap_cons, ← hrest]
            by_cases hd : d = c
            · simp [hd]
            · simp [hd, Ne.symm hd]
  rw [replaceAll, String.toList_ofList, String.toList_ofList]
  exact haux _ _ (String.length_toList ..).le

/-- Taking out a character. -/
theorem replaceAll_char_empty (s : String) (c : Char) :
    (replaceAll s (String.ofList [c]) "").toList = s.toList.filter (· != c) := by
  rw [replaceAll_char, String.toList_empty]
  induction s.toList with
  | nil => rfl
  | cons d l ih =>
      rw [List.flatMap_cons, ih]
      by_cases hd : d = c
      · simp [hd]
      · simp [hd]

/-- A text whose first character does not come before is replaced once. -/
theorem replaceAll_append_self {s old : String} {c : Char} {rest : List Char}
    (hold : old.toList = c :: rest) (hc : c ∉ s.toList) (new : String) :
    replaceAll (s ++ old) old new = s ++ new := by
  have haux : ∀ (l : List Char) (fuel : ℕ), c ∉ l → l.length < fuel →
      replaceAux (c :: rest) new.toList fuel (l ++ c :: rest) = l ++ new.toList := by
    intro l
    induction l with
    | nil =>
        intro fuel _ hfuel
        obtain ⟨fuel, rfl⟩ := Nat.exists_eq_add_of_lt hfuel
        have hself : (c :: rest).isPrefixOf (c :: rest) = true :=
          List.isPrefixOf_iff_prefix.2 (List.prefix_refl _)
        have hdone : ∀ n, replaceAux (c :: rest) new.toList n [] = [] := by
          intro n
          cases n <;> rfl
        rw [List.nil_append, replaceAux, hself, if_pos rfl, List.drop_length, hdone,
          List.append_nil, List.nil_append]
    | cons d l ih =>
        intro fuel hd hfuel
        obtain ⟨hne, hl⟩ := not_or.1 (mt List.mem_cons.2 hd)
        obtain ⟨fuel, rfl⟩ := Nat.exists_eq_add_of_lt (Nat.zero_lt_of_lt hfuel)
        have hnot : ¬(c :: rest).isPrefixOf (d :: (l ++ c :: rest)) = true := by
          rw [List.isPrefixOf_iff_prefix, List.cons_prefix_cons]
          exact fun h => hne h.1
        rw [Nat.zero_add] at hfuel ⊢
        rw [List.cons_append, replaceAux, if_neg hnot, ih fuel hl (Nat.lt_of_succ_lt_succ hfuel),
          List.cons_append]
  have hlist : (s ++ old).toList = s.toList ++ c :: rest := by rw [String.toList_append, hold]
  have hlength : s.toList.length < (s ++ old).length := by
    rw [← String.length_toList, hlist, List.length_append, List.length_cons]
    omega
  refine String.toList_inj.1 ?_
  rw [replaceAll, hold, hlist, String.toList_ofList, haux s.toList _ hc hlength,
    String.toList_append]

/-- The decimal digits of a number. -/
theorem isDigit_of_mem_itoa {n : ℕ} {c : Char} (h : c ∈ (itoa n).toList) : c.isDigit = true := by
  rw [itoa, Nat.toList_repr] at h
  exact Nat.isDigit_of_mem_toDigits (by decide) (by decide) h

theorem digits_itoa (n : ℕ) : digits (itoa n).toList = some n := by
  have hne : (itoa n).toList ≠ [] := mt String.toList_eq_nil_iff.1 Nat.repr_ne_empty
  rw [digits, if_pos ⟨hne, List.all_eq_true.2 fun c hc => isDigit_of_mem_itoa hc⟩, itoa,
    Nat.toList_repr]
  exact congrArg some Nat.ofDigitChars_ten_toDigits

/-- `Atoi` of digits, with or without a plus before them. -/
theorem atoi_of_not_minus {s : String} (hminus : ∀ ds, s.toList ≠ '-' :: ds) {n : ℕ}
    (hdigits : digits (if s.toList.head? = some '+' then s.toList.tail else s.toList) = some n) :
    atoi s = if n < 2 ^ 63 then ((n : ℤ), none) else (2 ^ 63 - 1, some .range) := by
  unfold atoi
  split
  · rename_i ds hs
    exact absurd hs (hminus ds)
  · rw [hdigits]

/-- `Atoi` of `Itoa`. -/
theorem atoi_itoa (n : ℕ) :
    atoi (itoa n) = if n < 2 ^ 63 then ((n : ℤ), none) else (2 ^ 63 - 1, some .range) := by
  have hsign : ∀ c, c.isDigit = false → ∀ rest, (itoa n).toList ≠ c :: rest := by
    intro c hc rest h
    have hdigit := isDigit_of_mem_itoa (h ▸ List.mem_cons_self : c ∈ (itoa n).toList)
    rw [hc] at hdigit
    cases hdigit
  have hplus : (itoa n).toList.head? ≠ some '+' := by
    intro h
    obtain ⟨rest, hrest⟩ := List.head?_eq_some_iff.1 h
    exact hsign '+' (by decide) rest hrest
  refine atoi_of_not_minus (hsign '-' (by decide)) ?_
  rw [if_neg hplus, digits_itoa]

theorem hasPrefix_iff (s p : String) : hasPrefix s p = true ↔ p.toList <+: s.toList :=
  List.isPrefixOf_iff_prefix

theorem hasSuffix_iff (s p : String) : hasSuffix s p = true ↔ p.toList <:+ s.toList :=
  List.isSuffixOf_iff_suffix

theorem trimSuffix_append (s suffix : String) : trimSuffix (s ++ suffix) suffix = s := by
  have hsuffix : hasSuffix (s ++ suffix) suffix = true := by
    rw [hasSuffix_iff, String.toList_append]
    exact List.suffix_append _ _
  rw [trimSuffix, if_pos hsuffix, String.toList_append, String.length_append, Nat.add_sub_cancel,
    ← String.length_toList, List.take_left, String.ofList_toList]

theorem mem_of_mem_trimSuffix {s suffix : String} {c : Char}
    (h : c ∈ (trimSuffix s suffix).toList) : c ∈ s.toList := by
  rw [trimSuffix] at h
  split_ifs at h
  · rw [String.toList_ofList] at h
    exact List.mem_of_mem_take h
  · exact h

theorem trimSuffix_append_of_not_hasSuffix {t : String} {c : Char} (ht : t ≠ "")
    (h : hasSuffix t (String.ofList [c]) = false) (s : String) :
    trimSuffix (s ++ t) (String.ofList [c]) = s ++ t := by
  have hnot : ¬hasSuffix (s ++ t) (String.ofList [c]) = true := by
    rw [hasSuffix_iff, String.toList_append, String.toList_ofList]
    intro hsuffix
    have hshort : [c].length ≤ t.toList.length :=
      List.length_pos_iff.2 (mt String.toList_eq_nil_iff.1 ht)
    have hmine := List.suffix_of_suffix_length_le hsuffix
      (List.suffix_append s.toList t.toList) hshort
    rw [← Bool.not_eq_true, hasSuffix_iff, String.toList_ofList] at h
    exact h hmine
  rw [trimSuffix, if_neg hnot]

/-- A trimmed text does not end in the character that is cut off. -/
theorem not_hasSuffix_trim (s : String) (c : Char) :
    hasSuffix (trim s (String.ofList [c])) (String.ofList [c]) = false := by
  rw [← Bool.not_eq_true, hasSuffix_iff, trim, trimFunc,
    String.toList_ofList, String.toList_ofList]
  rintro ⟨front, hfront⟩
  have hlast := List.rdropWhile_last_not (fun d => [c].contains d)
    (s.toList.dropWhile fun d => [c].contains d) (by rw [← hfront]; simp)
  simp only [← hfront, List.getLast_append_of_ne_nil, List.getLast_singleton, ne_eq,
    List.cons_ne_self, not_false_eq_true] at hlast
  simp at hlast

theorem split_ne_nil (s : String) (sep : Char) : split s sep ≠ [] := by
  rw [split, ne_eq, List.map_eq_nil_iff]
  exact List.splitOn_ne_nil sep s.toList

/-- A string with the separator in it is split into several parts. -/
theorem exists_split_of_mem {s : String} {sep : Char} (h : sep ∈ s.toList) :
    ∃ a b rest, split s sep = a :: b :: rest := by
  obtain ⟨front, back, hs⟩ := List.append_of_mem h
  have htext : s = String.ofList front ++ String.ofList [sep] ++ String.ofList back := by
    refine String.toList_inj.1 ?_
    simp only [String.toList_append, String.toList_ofList, hs, List.append_assoc,
      List.singleton_append]
  rw [htext, split_append]
  obtain ⟨a, as, ha⟩ := List.exists_cons_of_ne_nil (split_ne_nil (String.ofList front) sep)
  obtain ⟨b, bs, hb⟩ := List.exists_cons_of_ne_nil (split_ne_nil (String.ofList back) sep)
  rw [ha, hb]
  cases as with
  | nil => exact ⟨a, b, bs, rfl⟩
  | cons c cs => exact ⟨a, c, cs ++ b :: bs, rfl⟩

theorem split_of_not_mem {s : String} {sep : Char} (h : sep ∉ s.toList) : split s sep = [s] := by
  rw [split, List.splitOn_eq_singleton h, List.map_singleton, String.ofList_toList]

theorem trim_cons (c : Char) (l : List Char) :
    trim (String.ofList (c :: l)) (String.ofList [c]) =
      trim (String.ofList l) (String.ofList [c]) := by
  rw [trim, trim, trimFunc, trimFunc, String.toList_ofList, String.toList_ofList,
    String.toList_ofList, List.dropWhile_cons_of_pos (by simp)]

/-- A text without an empty part begins and ends with a part. -/
theorem trim_eq_self {s : String} {sep : Char} (h : "" ∉ split s sep) :
    trim s (String.ofList [sep]) = s := by
  have hmem : ∀ l r : List Char, s.toList = l ++ sep :: r → l ≠ [] ∧ r ≠ [] := by
    intro l r hs
    have htext : s = String.ofList l ++ String.ofList [sep] ++ String.ofList r := by
      refine String.toList_inj.1 ?_
      rw [hs]
      simp
    have hempty : "" ∈ split "" sep := List.mem_singleton.2 rfl
    rw [htext, split_append, List.mem_append, not_or] at h
    constructor
    · rintro rfl
      exact h.1 hempty
    · rintro rfl
      exact h.2 hempty
  have hhead : s.toList.dropWhile (fun d => [sep].contains d) = s.toList := by
    cases hs : s.toList with
    | nil => rfl
    | cons d rest =>
        refine List.dropWhile_cons_of_neg fun hd => ?_
        have hd' : d = sep := by simpa using hd
        exact (hmem [] rest (by rw [hs, hd', List.nil_append])).1 rfl
  have hlast : s.toList.rdropWhile (fun d => [sep].contains d) = s.toList := by
    rw [List.rdropWhile_eq_self_iff]
    intro hne hlast
    have hd : s.toList.getLast hne = sep := by simpa using hlast
    refine (hmem s.toList.dropLast [] ?_).2 rfl
    rw [← hd, List.dropLast_append_getLast]
  rw [trim, trimFunc, String.toList_ofList, hhead, hlast, String.ofList_toList]

/-- Two lists that are equal are equal up to their first separator and from there on. -/
theorem append_cons_inj_of_not_mem {α : Type*} {sep : α} {l₁ l₂ r₁ r₂ : List α} (h₁ : sep ∉ l₁)
    (h₂ : sep ∉ l₂) (h : l₁ ++ sep :: r₁ = l₂ ++ sep :: r₂) : l₁ = l₂ ∧ r₁ = r₂ := by
  induction l₁ generalizing l₂ with
  | nil =>
      cases l₂ with
      | nil => exact ⟨rfl, (List.cons_eq_cons.1 h).2⟩
      | cons b l₂ => exact absurd ((List.cons_eq_cons.1 h).1 ▸ List.mem_cons_self) h₂
  | cons a l₁ ih =>
      cases l₂ with
      | nil => exact absurd ((List.cons_eq_cons.1 h).1 ▸ List.mem_cons_self) h₁
      | cons b l₂ =>
          obtain ⟨rfl, hrest⟩ := List.cons_eq_cons.1 h
          obtain ⟨rfl, rfl⟩ := ih (fun hm => h₁ (List.mem_cons_of_mem a hm))
            (fun hm => h₂ (List.mem_cons_of_mem a hm)) hrest
          exact ⟨rfl, rfl⟩

theorem contains_iff (s sub : String) : contains s sub = true ↔ sub.toList <:+: s.toList := by
  simp [contains]

theorem contains_char_iff (s : String) (c : Char) :
    contains s (String.ofList [c]) = true ↔ c ∈ s.toList := by
  rw [contains_iff, String.toList_ofList, List.singleton_infix_iff]

theorem trimFunc_trimFunc (s : String) (p : Char → Bool) :
    trimFunc (trimFunc s p) p = trimFunc s p := by
  have hhead : ((s.toList.dropWhile p).rdropWhile p).dropWhile p =
      (s.toList.dropWhile p).rdropWhile p := by
    -- what is left starts with what the first round left, which is not dropped
    refine List.dropWhile_eq_self_iff.2 fun hlen hp => ?_
    obtain ⟨rest, hrest⟩ := List.rdropWhile_prefix p (s.toList.dropWhile p)
    have hlen' : 0 < (s.toList.dropWhile p).length := by
      rw [← hrest, List.length_append]
      omega
    refine List.dropWhile_eq_self_iff.1 (List.dropWhile_idempotent p s.toList) hlen' ?_
    rw [List.getElem_of_eq hrest.symm, List.getElem_append_left hlen]
    exact hp
  rw [trimFunc, trimFunc, String.toList_ofList, hhead, List.rdropWhile_idempotent]

theorem trimSpace_trimSpace (s : String) : trimSpace (trimSpace s) = trimSpace s :=
  trimFunc_trimFunc s isSpace

/-- A character other than the separator goes to the last part. -/
theorem splitOn_concat {sep c : Char} (h : c ≠ sep) (l : List Char) :
    ∃ init last, l.splitOn sep = init ++ [last] ∧
      (l ++ [c]).splitOn sep = init ++ [last ++ [c]] := by
  induction l with
  | nil => exact ⟨[], [], rfl, List.splitOn_eq_singleton (by simpa using h.symm)⟩
  | cons d rest ih =>
      obtain ⟨init, last, hrest, hconcat⟩ := ih
      rw [List.cons_append, List.splitOn_cons_eq_if_modifyHead,
        List.splitOn_cons_eq_if_modifyHead, hrest, hconcat]
      split
      · exact ⟨[] :: init, last, rfl, rfl⟩
      · cases init with
        | nil => exact ⟨[], d :: last, rfl, rfl⟩
        | cons first init => exact ⟨(d :: first) :: init, last, rfl, rfl⟩

section Trim

variable {p : Char → Bool} {c : Char}

theorem trimFunc_cons (h : p c = true) (l : List Char) :
    trimFunc (String.ofList (c :: l)) p = trimFunc (String.ofList l) p := by
  rw [trimFunc, trimFunc, String.toList_ofList, String.toList_ofList, List.dropWhile_cons_of_pos h]

theorem trimFunc_concat (h : p c = true) (l : List Char) :
    trimFunc (String.ofList (l ++ [c])) p = trimFunc (String.ofList l) p := by
  rw [trimFunc, trimFunc, String.toList_ofList, String.toList_ofList, List.dropWhile_append]
  split
  · rename_i hnil
    rw [List.isEmpty_iff.1 hnil, List.dropWhile_cons_of_pos h]
    rfl
  · rw [List.rdropWhile_concat_pos _ _ _ h]

/-- Splitting a trimmed text and trimming its parts is splitting the text and trimming its
parts. -/
theorem map_trimFunc_split {sep : Char} (hsep : p sep = false) (s : String) :
    (split (trimFunc s p) sep).map (trimFunc · p) = (split s sep).map (trimFunc · p) := by
  have hne : ∀ {c : Char}, p c = true → c ≠ sep := by
    rintro c hc rfl
    rw [hsep] at hc
    cases hc
  have hdrop : ∀ l : List Char, ((l.dropWhile p).splitOn sep).map
      (fun part => trimFunc (String.ofList part) p) =
        (l.splitOn sep).map fun part => trimFunc (String.ofList part) p := by
    intro l
    induction l with
    | nil => rfl
    | cons c rest ih =>
        by_cases hc : p c = true
        · rw [List.dropWhile_cons_of_pos hc, ih, List.splitOn_cons_eq_if_modifyHead,
            if_neg (by simpa using hne hc)]
          obtain ⟨first, parts, hparts⟩ := List.exists_cons_of_ne_nil (List.splitOn_ne_nil sep rest)
          rw [hparts, List.modifyHead_cons, List.map_cons, List.map_cons, trimFunc_cons hc]
        · rw [List.dropWhile_cons_of_neg hc]
  have hrdrop : ∀ l : List Char, ((l.rdropWhile p).splitOn sep).map
      (fun part => trimFunc (String.ofList part) p) =
        (l.splitOn sep).map fun part => trimFunc (String.ofList part) p := by
    intro l
    induction l using List.reverseRecOn with
    | nil => rfl
    | append_singleton rest c ih =>
        by_cases hc : p c = true
        · obtain ⟨init, last, hrest, hconcat⟩ := splitOn_concat (hne hc) rest
          rw [List.rdropWhile_concat_pos _ _ _ hc, ih, hrest, hconcat, List.map_append,
            List.map_append, List.map_singleton, List.map_singleton, trimFunc_concat hc]
        · rw [List.rdropWhile_concat_neg _ _ _ hc]
  rw [split, split, List.map_map, List.map_map, trimFunc, String.toList_ofList]
  exact (hrdrop _).trans (hdrop _)

end Trim

end Strings
end IntegrityShield
