/-
# Dotted keys

`shield/pkg/util/mapnode/node.go` (`splitConcatKey`, `parseConcatKey`) and
`shield/pkg/util/mapnode/diff.go` (`isListed`, `keyExistsInList`).

A key names a place in a tree: names and indices joined by dots, `foo[1]` for
`foo.1`, `foo[].bar` for every index, a quoted name for a name with dots in it,
and `*` as a wildcard.  The wildcard is matched by turning the key into a
regular expression, in which every other character keeps the meaning it has
there, and which may match anywhere in the path.
-/

import IntegrityShield.Base.Csv
import IntegrityShield.Base.RegexpParse
import IntegrityShield.Base.Strings

namespace IntegrityShield
namespace Mapnode

/-- The expression `\[\d+\]$` at the end of a name: the name before it and the
digits.  The digits run back from the bracket, so at most one split fits. -/
def trailingIndex (k : String) : Option (List Char × List Char) :=
  match k.toList.reverse with
  | ']' :: r =>
      let ds := r.takeWhile Char.isDigit
      match ds, r.drop ds.length with
      | _ :: _, '[' :: before => some (before.reverse, ds.reverse)
      | _, _ => none
  | _ => none

/-- One name of a key: `foo[1]` stands for `foo` and `1`.  `ReplaceAll` drops
every occurrence of the found text, not only the one at the end. -/
def parseName (k : String) : List String :=
  match trailingIndex k with
  | none => [k]
  | some (_, ds) =>
      let found := String.ofList ('[' :: ds ++ [']'])
      let k1 := Strings.replaceAll k found ""
      let k2 := String.ofList ds
      if k1 ≠ "" then [k1, k2] else [k2]

/-- `splitConcatKey`: a key the CSV reader rejects has no names at all. -/
def splitConcatKey (concatKey : String) : List String :=
  let keys :=
    if Strings.contains concatKey "\"" then (Csv.read '.' concatKey).getD []
    else Strings.split concatKey '.'
  keys.flatMap parseName

/-- `parseConcatKey`. -/
def parseConcatKey (concatKey : String) : String := Strings.join (splitConcatKey concatKey) "."

theorem trailingIndex_eq_none {k : String} (h : ']' ∉ k.toList) : trailingIndex k = none := by
  unfold trailingIndex
  split
  · rename_i r hr
    have hmem : ']' ∈ k.toList.reverse := hr ▸ List.mem_cons_self
    exact absurd (List.mem_reverse.1 hmem) h
  · rfl

theorem parseName_eq_self {k : String} (h : ']' ∉ k.toList) : parseName k = [k] := by
  rw [parseName, trailingIndex_eq_none h]

/-- Without quotes a key is split at its dots. -/
theorem splitConcatKey_eq {k : String} (hquote : '"' ∉ k.toList) :
    splitConcatKey k = (Strings.split k '.').flatMap parseName := by
  have hcontains : Strings.contains k "\"" = false :=
    Bool.eq_false_iff.2 (mt (Strings.contains_char_iff k '"').1 hquote)
  rw [splitConcatKey, hcontains, if_neg Bool.false_ne_true]

theorem splitConcatKey_append {k k' : String} (hquote : '"' ∉ k.toList)
    (hquote' : '"' ∉ k'.toList) :
    splitConcatKey (k ++ "." ++ k') = splitConcatKey k ++ splitConcatKey k' := by
  have hboth : '"' ∉ (k ++ "." ++ k').toList := by
    simp only [String.toList_append, List.mem_append, not_or]
    exact ⟨⟨hquote, by decide⟩, hquote'⟩
  have hsplit := Strings.split_append k k' '.'
  rw [splitConcatKey_eq hquote, splitConcatKey_eq hquote', splitConcatKey_eq hboth,
    ← List.flatMap_append, ← hsplit]

/-- **A key without quotes and closing brackets is parsed as it stands.** -/
theorem parseConcatKey_eq_self {k : String} (hquote : '"' ∉ k.toList) (hbracket : ']' ∉ k.toList) :
    parseConcatKey k = k := by
  have hone : ∀ name ∈ Strings.split k '.', parseName name = [name] := by
    intro name hname
    obtain ⟨cs, hcs, rfl⟩ := List.mem_map.1 hname
    refine parseName_eq_self fun h => hbracket ?_
    rw [String.toList_ofList] at h
    exact (Strings.mem_of_mem_splitOn hcs h).1
  rw [parseConcatKey, splitConcatKey_eq hquote, List.flatMap_congr hone, List.flatMap_singleton']
  exact Strings.join_split k '.'

theorem not_mem_itoa {c : Char} (hc : c.isDigit = false) (n : ℕ) : c ∉ (Strings.itoa n).toList := by
  intro h
  rw [Strings.isDigit_of_mem_itoa h] at hc
  cases hc

theorem parseName_itoa (n : ℕ) : parseName (Strings.itoa n) = [Strings.itoa n] :=
  parseName_eq_self (not_mem_itoa (by decide) n)

/-- An index is one name. -/
theorem splitConcatKey_itoa (n : ℕ) : splitConcatKey (Strings.itoa n) = [Strings.itoa n] := by
  rw [splitConcatKey_eq (not_mem_itoa (by decide) n),
    Strings.split_of_not_mem (not_mem_itoa (by decide) n), List.flatMap_singleton, parseName_itoa]

theorem trailingIndex_eq_some {k : String} {r : List Char × List Char}
    (h : trailingIndex k = some r) : k.toList = r.1 ++ '[' :: r.2 ++ [']'] := by
  unfold trailingIndex at h
  split at h
  · rename_i rest hrest
    simp only at h
    split at h
    · rename_i d ds before hds hbefore
      obtain rfl := Option.some.inj h
      have hsplit := List.prefix_iff_eq_append.1 (List.takeWhile_prefix (l := rest) Char.isDigit)
      rw [hbefore] at hsplit
      have hreverse := congrArg List.reverse hrest
      rw [List.reverse_reverse, List.reverse_cons, ← hsplit] at hreverse
      rw [hreverse]
      simp
    · cases h
  · cases h

/-- A name with an index behind it. -/
theorem trailingIndex_append (before : List Char) {ds : List Char} (hne : ds ≠ [])
    (hdigits : ∀ c ∈ ds, c.isDigit = true) :
    trailingIndex (String.ofList (before ++ '[' :: ds ++ [']'])) = some (before, ds) := by
  have hreverse : (before ++ '[' :: ds ++ [']']).reverse =
      ']' :: (ds.reverse ++ '[' :: before.reverse) := by
    simp
  have htake : (ds.reverse ++ '[' :: before.reverse).takeWhile Char.isDigit = ds.reverse := by
    rw [List.takeWhile_append_of_pos fun c hc => hdigits c (List.mem_reverse.1 hc),
      List.takeWhile_cons_of_neg (by decide), List.append_nil]
  obtain ⟨d, rest, hcons⟩ := List.exists_cons_of_ne_nil (mt List.reverse_eq_nil_iff.1 hne)
  unfold trailingIndex
  rw [String.toList_ofList, hreverse]
  simp only [htake, List.drop_left]
  rw [hcons]
  simp only [List.reverse_reverse]
  rw [← hcons, List.reverse_reverse]

theorem parseName_index {s : String} (hs : '[' ∉ s.toList) (hne : s ≠ "") (n : ℕ) :
    parseName (String.ofList (s.toList ++ '[' :: (Strings.itoa n).toList ++ [']'])) =
      [s, Strings.itoa n] := by
  have htext : String.ofList (s.toList ++ '[' :: (Strings.itoa n).toList ++ [']']) =
      s ++ String.ofList ('[' :: (Strings.itoa n).toList ++ [']']) := by
    refine String.toList_inj.1 ?_
    rw [String.toList_append, String.toList_ofList, String.toList_ofList, List.append_assoc]
  have hdigits : (Strings.itoa n).toList ≠ [] := mt String.toList_eq_nil_iff.1 Nat.repr_ne_empty
  have htrail := trailingIndex_append s.toList hdigits fun c hc => Strings.isDigit_of_mem_itoa hc
  have hreplace : Strings.replaceAll (s ++ String.ofList ('[' :: (Strings.itoa n).toList ++ [']']))
      (String.ofList ('[' :: (Strings.itoa n).toList ++ [']'])) "" = s :=
    (Strings.replaceAll_append_self String.toList_ofList hs "").trans String.append_empty
  rw [parseName, htrail]
  simp only [htext, hreplace, if_pos hne, String.ofList_toList]

theorem parseName_wildcard (s : String) : parseName (s ++ "[]") = [s ++ "[]"] := by
  have hnone : trailingIndex (s ++ "[]") = none := by
    have hreverse : (s ++ "[]").toList.reverse = ']' :: '[' :: s.toList.reverse := by
      rw [String.toList_append]
      exact List.reverse_append
    unfold trailingIndex
    rw [hreverse]
    simp only [List.takeWhile_cons_of_neg (show ¬('['.isDigit = true) by decide)]
  rw [parseName, hnone]

theorem mem_of_mem_parseName {k name : String} (h : name ∈ parseName k) {c : Char}
    (hc : c ∈ name.toList) : c ∈ k.toList := by
  rw [parseName] at h
  cases htrail : trailingIndex k with
  | none =>
      rw [htrail, List.mem_singleton] at h
      exact h ▸ hc
  | some r =>
      have hdigits : c ∈ r.2 → c ∈ k.toList := by
        intro hds
        rw [trailingIndex_eq_some htrail]
        exact List.mem_append_left _ (List.mem_append_right _ (List.mem_cons_of_mem _ hds))
      obtain ⟨before, ds⟩ := r
      rw [htrail] at h
      simp only at h
      have hone : ∀ name' : String, name' ∈ [String.ofList ds] → c ∈ name'.toList →
          c ∈ k.toList := by
        intro name' hname hc
        rw [List.mem_singleton.1 hname, String.toList_ofList] at hc
        exact hdigits hc
      split_ifs at h
      · rcases List.mem_cons.1 h with rfl | h
        · exact Strings.mem_of_mem_replaceAll_empty hc
        · exact hone name h hc
      · exact hone name h hc

/-- The names of a key are made of its characters. -/
theorem mem_of_mem_splitConcatKey {key name : String} (h : name ∈ splitConcatKey key) {c : Char}
    (hc : c ∈ name.toList) : c ∈ key.toList := by
  obtain ⟨k, hk, hname⟩ := List.mem_flatMap.1 h
  have hck := mem_of_mem_parseName hname hc
  split_ifs at hk
  · cases hread : Csv.read '.' key with
    | none =>
        rw [hread] at hk
        exact absurd hk List.not_mem_nil
    | some record =>
        rw [hread] at hk
        exact Csv.mem_of_mem_read hread k hk c hck
  · obtain ⟨cs, hcs, rfl⟩ := List.mem_map.1 hk
    rw [String.toList_ofList] at hck
    exact (Strings.mem_of_mem_splitOn hcs hck).1

theorem mem_of_mem_parseConcatKey {key : String} {c : Char} (h : c ∈ (parseConcatKey key).toList) :
    c = '.' ∨ c ∈ key.toList := by
  obtain hsep | ⟨name, hname, hc⟩ := Strings.mem_of_mem_join h
  · exact Or.inl (List.mem_singleton.1 hsep)
  · exact Or.inr (mem_of_mem_splitConcatKey hname hc)

theorem not_mem_parseConcatKey {key : String} {c : Char} (hdot : c ≠ '.') (hc : c ∉ key.toList) :
    c ∉ (parseConcatKey key).toList := fun h =>
  (mem_of_mem_parseConcatKey h).elim hdot hc

/-- **A key with a quoted last name** stands for the name without its quotes. -/
theorem parseConcatKey_quoted {key name : String}
    (hkey : ∀ c ∈ key.toList, c ≠ '"' ∧ c ≠ ']' ∧ c ≠ '\r') (hline : '\n' ∉ key.toList)
    (hname : ∀ c ∈ name.toList, c ≠ '"' ∧ c ≠ ']' ∧ c ≠ '\r') :
    parseConcatKey (key ++ ".\"" ++ name ++ "\"") = key ++ "." ++ name := by
  have hquote : '"' ∈ (key ++ ".\"" ++ name ++ "\"").toList := by simp
  have htext : (key ++ ".\"" ++ name ++ "\"").toList =
      Csv.quotedRecord '.' (key.toList.splitOn '.') name.toList := by
    rw [Csv.quotedRecord, Strings.intercalate_concat (List.splitOn_ne_nil _ _),
      List.intercalate_splitOn]
    simp
  have hplain : ∀ f ∈ key.toList.splitOn '.', Csv.PlainField '.' f := by
    intro f hf c hc
    obtain ⟨hmem, hdot⟩ := Strings.mem_of_mem_splitOn hf hc
    exact ⟨hdot, ne_of_mem_of_not_mem hmem hline, (hkey c hmem).2.2, (hkey c hmem).1⟩
  have hread := Csv.read_quotedRecord (by decide) hplain (fun hc => (hname _ hc).1 rfl)
    (fun hc => (hname _ hc).2.2 rfl) htext
  have hnames : ∀ n ∈ Strings.split key '.' ++ [name], parseName n = [n] := by
    intro n hn
    refine parseName_eq_self fun hc => ?_
    rcases List.mem_append.1 hn with hn | hn
    · obtain ⟨cs, hcs, rfl⟩ := List.mem_map.1 hn
      rw [String.toList_ofList] at hc
      exact (hkey _ (Strings.mem_of_mem_splitOn hcs hc).1).2.1 rfl
    · rw [List.mem_singleton.1 hn] at hc
      exact (hname _ hc).2.1 rfl
  have hsplit : splitConcatKey (key ++ ".\"" ++ name ++ "\"") =
      Strings.split key '.' ++ [name] := by
    rw [splitConcatKey, if_pos ((Strings.contains_char_iff _ '"').2 hquote), hread, Option.getD_some,
      List.map_append, List.map_singleton, String.ofList_toList]
    exact (List.flatMap_congr hnames).trans (List.flatMap_singleton' _)
  rw [parseConcatKey, hsplit, Strings.join_concat (Strings.split_ne_nil _ _)]
  exact congrArg (· ++ "." ++ name) (Strings.join_split key '.')

/-- A key that stands for itself: the parser keeps it and it covers one path. -/
def PlainKey (k : String) : Prop :=
  k ≠ "" ∧ ∀ c ∈ k.toList, c ≠ '"' ∧ c ≠ ']' ∧ c ≠ '*'

instance (k : String) : Decidable (PlainKey k) :=
  @instDecidableAnd _ _ _ (List.decidableBAll _ k.toList)

theorem PlainKey.parseConcatKey_eq {k : String} (h : PlainKey k) : parseConcatKey k = k :=
  parseConcatKey_eq_self (fun hc => (h.2 _ hc).1 rfl) fun hc => (h.2 _ hc).2.1 rfl

theorem PlainKey.no_brackets {k : String} (h : PlainKey k) : Strings.contains k "[]" = false := by
  rw [← Bool.not_eq_true, Strings.contains_iff]
  exact fun hin => (h.2 ']' (hin.subset (by decide))).2.1 rfl

/-- The key of a child: `fmt.Sprintf("%s.%s", currentPath, k)`, or `k` at the root. -/
def childKey (currentPath k : String) : String :=
  if currentPath = "" then k else currentPath ++ "." ++ k

variable [Regexp.UnicodeTables]

/-- `isListed`. -/
def isListed (data rule : String) : Bool :=
  if data = rule then true
  else if rule = "*" then true
  else if rule = "" then true
  else if Strings.contains rule "*" then
    Regexp.matchString (Strings.replaceAll rule "*" ".*") data
  else false

theorem isListed_self (rule : String) : isListed rule rule = true := by
  rw [isListed, if_pos rfl]

/-- A plain rule covers itself only. -/
theorem PlainKey.isListed_eq_false {data rule : String} (h : PlainKey rule) (hdata : data ≠ rule) :
    isListed data rule = false := by
  have hstar : '*' ∉ rule.toList := fun hc => (h.2 _ hc).2.2 rfl
  have hcontains : Strings.contains rule "*" = false := by
    rw [← Bool.not_eq_true, Strings.contains_iff]
    exact fun hin => hstar (hin.subset (List.mem_singleton.2 rfl))
  have hne : rule ≠ "*" := by
    rintro rfl
    exact hstar (List.mem_singleton.2 rfl)
  rw [isListed, if_neg hdata, if_neg hne, if_neg h.1, hcontains, if_neg Bool.false_ne_true]

/-- `keyExistsInList`: the first rule of the list that covers `val`. -/
def keyExistsInList : List String → String → Bool × String
  | [], _ => (false, "")
  | item :: rest, val => if isListed val item then (true, item) else keyExistsInList rest val

theorem keyExistsInList_fst (keys : List String) (val : String) :
    (keyExistsInList keys val).1 = keys.any (isListed val) := by
  induction keys with
  | nil => rfl
  | cons item rest ih =>
      rw [keyExistsInList, List.any_cons]
      cases h : isListed val item with
      | true => rw [if_pos rfl, Bool.true_or]
      | false => rw [if_neg Bool.false_ne_true, Bool.false_or, ih]

end Mapnode
end IntegrityShield
