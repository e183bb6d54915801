/-
# Parsing a key twice

`validateKeyList` of `shield/pkg/util/mapnode/node.go` writes the parsed keys back into the slice it
is given, and `matchContents` calls `Mask`, or `Extract`, twice with one slice, so the keys for the
request are parsed once more than those for the signed document.

Parsing takes the quotes off a field and splits an index off a name.  A key stays as it is exactly
if it has no quote and no name with an index at its end (`parseConcatKey_eq_self_iff`): otherwise
it loses a quote, or a name gets longer or shorter.  What a parsed key looks like can be read off
the fields of the key (`stable_iff`): a quote inside a field, a quoted field with an index in the
middle, and a second index of a name are what a second pass takes for its own.
-/

import IntegrityShield.Mapnode.Mask

namespace IntegrityShield
namespace Mapnode

/-- The fields of a key: as the CSV reader unquotes them, or the parts between dots. -/
def keyFields (concatKey : String) : List String :=
  if Strings.contains concatKey "\"" then (Csv.read '.' concatKey).getD []
  else Strings.split concatKey '.'

/-- A field without its index, as `splitConcatKey` takes it off. -/
def stem (k : String) : String :=
  match trailingIndex k with
  | none => k
  | some (_, ds) => Strings.replaceAll k (String.ofList ('[' :: ds ++ [']'])) ""

/-- No part between dots ends in an index. -/
def Unindexed (s : String) : Prop := ∀ seg ∈ Strings.split s '.', trailingIndex seg = none

instance (s : String) : Decidable (Unindexed s) := List.decidableBAll _ _

/-- No field has a quote, or a part with an index left once its own is off. -/
def Settled (concatKey : String) : Prop :=
  ∀ f ∈ keyFields concatKey, '"' ∉ f.toList ∧ Unindexed (stem f)

instance (concatKey : String) : Decidable (Settled concatKey) := List.decidableBAll _ _

theorem splitConcatKey_eq_flatMap (concatKey : String) :
    splitConcatKey concatKey = (keyFields concatKey).flatMap parseName := rfl

/-! ## Names -/

theorem isDigit_trailingIndex {k : String} {r : List Char × List Char}
    (h : trailingIndex k = some r) : ∀ c ∈ r.2, c.isDigit = true := by
  unfold trailingIndex at h
  split at h
  · rename_i rest hrest
    simp only at h
    split at h
    · rename_i d ds before hds hbefore
      obtain rfl := Option.some.inj h
      intro c hc
      rw [List.mem_reverse] at hc
      exact List.mem_takeWhile_imp hc
    · cases h
  · cases h

/-- A field is one name, or its stem, unless that is empty, and its index. -/
theorem parseName_cases (k : String) :
    (trailingIndex k = none ∧ parseName k = [k]) ∨
    ∃ r, trailingIndex k = some r ∧
      parseName k = (if stem k ≠ "" then [stem k] else []) ++ [String.ofList r.2] := by
  cases h : trailingIndex k with
  | none => exact Or.inl ⟨rfl, by rw [parseName, h]⟩
  | some r =>
      refine Or.inr ⟨r, rfl, ?_⟩
      obtain ⟨before, ds⟩ := r
      rw [parseName, stem, h]
      simp only
      split_ifs <;> rfl

theorem parseName_ne_nil (k : String) : parseName k ≠ [] := by
  obtain ⟨_, h⟩ | ⟨r, _, h⟩ := parseName_cases k
  · exact h ▸ List.cons_ne_nil k []
  · exact h ▸ List.append_ne_nil_of_right_ne_nil _ (List.cons_ne_nil _ [])

/-- Only a field without an index is its own name. -/
theorem parseName_eq_singleton_iff (k : String) :
    parseName k = [k] ↔ trailingIndex k = none := by
  obtain ⟨hnone, h⟩ | ⟨r, hsome, h⟩ := parseName_cases k
  · exact iff_of_true h hnone
  · refine iff_of_false (fun heq => ?_) (by rw [hsome]; exact Option.some_ne_none r)
    rw [h] at heq
    split_ifs at heq
    · exact absurd (List.cons.inj heq).2 (List.cons_ne_nil _ [])
    · -- the field ends in a bracket and its index has none
      have hk : k = String.ofList r.2 := (List.cons.inj heq).1.symm
      have hbracket : ']' ∈ k.toList := by
        rw [trailingIndex_eq_some hsome]
        exact List.mem_append_right _ List.mem_cons_self
      rw [hk, String.toList_ofList] at hbracket
      exact absurd (isDigit_trailingIndex hsome _ hbracket) (by decide)

/-- A quote in a field is in one of its names. -/
theorem exists_quote_parseName {k : String} (hquote : '"' ∈ k.toList) :
    ∃ name ∈ parseName k, '"' ∈ name.toList := by
  obtain ⟨_, h⟩ | ⟨r, hsome, h⟩ := parseName_cases k
  · exact ⟨k, h ▸ List.mem_singleton.2 rfl, hquote⟩
  · have hindex : '"' ∉ (String.ofList ('[' :: r.2 ++ [']'])).toList := by
      rw [String.toList_ofList]
      intro hmem
      rcases List.mem_append.1 hmem with hmem | hmem
      · rcases List.mem_cons.1 hmem with heq | hmem
        · exact absurd heq (by decide)
        · exact absurd (isDigit_trailingIndex hsome _ hmem) (by decide)
      · exact absurd (List.mem_singleton.1 hmem) (by decide)
    have hstem : '"' ∈ (stem k).toList := by
      rw [stem, hsome]
      exact Strings.mem_replaceAll_empty hindex hquote
    have hne : stem k ≠ "" := by
      intro hempty
      rw [hempty] at hstem
      exact absurd hstem List.not_mem_nil
    refine ⟨stem k, ?_, hstem⟩
    rw [h, if_pos hne]
    exact List.mem_cons_self

/-- Of the names of a field only the stem can end in an index. -/
theorem unindexed_parseName_iff (k : String) :
    (∀ name ∈ parseName k, Unindexed name) ↔ Unindexed (stem k) := by
  obtain ⟨hnone, h⟩ | ⟨r, hsome, h⟩ := parseName_cases k
  · rw [h, stem, hnone]
    exact List.forall_mem_singleton
  · have hdigits : ∀ c, c.isDigit = false → c ∉ (String.ofList r.2).toList := by
      intro c hc hmem
      rw [String.toList_ofList] at hmem
      rw [isDigit_trailingIndex hsome c hmem] at hc
      cases hc
    have hindex : Unindexed (String.ofList r.2) := by
      rw [Unindexed, Strings.split_of_not_mem (hdigits '.' (by decide))]
      exact List.forall_mem_singleton.2 (trailingIndex_eq_none (hdigits ']' (by decide)))
    have hempty : Unindexed "" := by decide
    rw [h, List.forall_mem_append, List.forall_mem_singleton]
    split_ifs with hstem
    · rw [List.forall_mem_singleton]
      exact ⟨And.left, fun hk => ⟨hk, hindex⟩⟩
    · rw [not_not.1 hstem]
      exact iff_of_true ⟨by simp, hindex⟩ hempty

theorem count_quote_parseName_le (k : String) :
    ((parseName k).map fun name => name.toList.count '"').sum ≤ k.toList.count '"' := by
  obtain ⟨_, h⟩ | ⟨r, hsome, h⟩ := parseName_cases k
  · rw [h, List.map_singleton, List.sum_singleton]
  · have hindex : (String.ofList r.2).toList.count '"' = 0 := by
      rw [String.toList_ofList, List.count_eq_zero]
      exact fun hmem => absurd (isDigit_trailingIndex hsome _ hmem) (by decide)
    have hstem : (stem k).toList.count '"' ≤ k.toList.count '"' := by
      rw [stem, hsome]
      exact (Strings.replaceAll_empty_sublist _ _).count_le _
    rw [h, List.map_append, List.sum_append, List.map_singleton, List.sum_singleton, hindex,
      Nat.add_zero]
    split_ifs
    · rwa [List.map_singleton, List.sum_singleton]
    · exact Nat.zero_le _

/-! ## Keys that stay as they are -/

/-- A list that is kept by a map to non-empty lists is kept element by element. -/
theorem eq_singleton_of_flatMap_eq_self {α : Type*} {f : α → List α} {l : List α}
    (hne : ∀ a ∈ l, f a ≠ []) (h : l.flatMap f = l) : ∀ a ∈ l, f a = [a] := by
  have hlength : ∀ l : List α, (∀ a ∈ l, f a ≠ []) → l.length ≤ (l.flatMap f).length := by
    intro l
    induction l with
    | nil => exact fun _ => Nat.le_refl _
    | cons a rest ih =>
        intro hne
        obtain ⟨ha, hrest⟩ := List.forall_mem_cons.1 hne
        have hpos := List.length_pos_iff.2 ha
        have hle := ih hrest
        rw [List.flatMap_cons, List.length_append, List.length_cons]
        omega
  induction l with
  | nil => exact fun a ha => absurd ha List.not_mem_nil
  | cons a rest ih =>
      obtain ⟨ha, hrest⟩ := List.forall_mem_cons.1 hne
      obtain ⟨b, bs, hb⟩ := List.exists_cons_of_ne_nil ha
      rw [List.flatMap_cons, hb, List.cons_append] at h
      obtain ⟨rfl, htail⟩ := List.cons.inj h
      have hle := hlength rest hrest
      have hsum := congrArg List.length htail
      rw [List.length_append] at hsum
      obtain rfl : bs = [] := List.length_eq_zero_iff.1 (by omega)
      exact List.forall_mem_cons.2 ⟨hb, ih hrest htail⟩

/-- Parsing a key with quotes takes some away. -/
theorem parseConcatKey_ne_of_quote {key : String} (h : '"' ∈ key.toList) :
    parseConcatKey key ≠ key := by
  intro heq
  have hpos := List.count_pos_iff.2 h
  have hcount : (parseConcatKey key).toList.count '"' =
      ((splitConcatKey key).map fun name => name.toList.count '"').sum :=
    Strings.count_join (by decide) _
  have hle : ∀ fs : List String,
      ((fs.flatMap parseName).map fun name => name.toList.count '"').sum ≤
        (fs.map fun f => f.toList.count '"').sum := by
    intro fs
    induction fs with
    | nil => exact Nat.le_refl _
    | cons f rest ih =>
        rw [List.flatMap_cons, List.map_append, List.sum_append, List.map_cons, List.sum_cons]
        exact Nat.add_le_add (count_quote_parseName_le f) ih
  have hfields := hle (keyFields key)
  rw [heq, splitConcatKey_eq_flatMap] at hcount
  rw [← hcount, keyFields, if_pos ((Strings.contains_char_iff key '"').2 h)] at hfields
  cases hread : Csv.read '.' key with
  | none =>
      rw [hread] at hfields
      exact absurd hfields (Nat.not_le_of_lt hpos)
  | some record =>
      rw [hread] at hfields
      exact absurd hfields (Nat.not_le_of_lt (Csv.count_read hread h))

/-- **The keys that parsing keeps**: those without a quote and without a part that ends in an
index. -/
theorem parseConcatKey_eq_self_iff (key : String) :
    parseConcatKey key = key ↔ '"' ∉ key.toList ∧ Unindexed key := by
  by_cases hquote : '"' ∈ key.toList
  · exact iff_of_false (parseConcatKey_ne_of_quote hquote) fun h => h.1 hquote
  · have hsplit := splitConcatKey_eq hquote
    rw [and_iff_right hquote]
    constructor
    · intro heq seg hseg
      -- the names have no dots, so they are the parts of the parsed key
      have hdots : ∀ name ∈ splitConcatKey key, '.' ∉ name.toList := by
        intro name hname
        rw [hsplit] at hname
        obtain ⟨seg, hseg, hname⟩ := List.mem_flatMap.1 hname
        obtain ⟨cs, hcs, rfl⟩ := List.mem_map.1 hseg
        intro hdot
        have hmem := mem_of_mem_parseName hname hdot
        rw [String.toList_ofList] at hmem
        exact (Strings.mem_of_mem_splitOn hcs hmem).2 rfl
      have hne : splitConcatKey key ≠ [] := by
        rw [hsplit]
        obtain ⟨a, rest, ha⟩ := List.exists_cons_of_ne_nil (Strings.split_ne_nil key '.')
        rw [ha, List.flatMap_cons]
        exact List.append_ne_nil_of_left_ne_nil (parseName_ne_nil a) _
      have hparts : (Strings.split key '.').flatMap parseName = Strings.split key '.' := by
        rw [← hsplit, ← Strings.split_join hne hdots]
        exact congrArg (Strings.split · '.') heq
      exact (parseName_eq_singleton_iff seg).1
        (eq_singleton_of_flatMap_eq_self (fun a _ => parseName_ne_nil a) hparts seg hseg)
    · intro hparts
      have hone : ∀ seg ∈ Strings.split key '.', parseName seg = [seg] := fun seg hseg =>
        (parseName_eq_singleton_iff seg).2 (hparts seg hseg)
      rw [parseConcatKey, hsplit, List.flatMap_congr hone, List.flatMap_singleton']
      exact Strings.join_split key '.'

/-- **When a second pass changes nothing.** -/
theorem stable_iff (key : String) :
    parseConcatKey (parseConcatKey key) = parseConcatKey key ↔ Settled key := by
  have hquote : '"' ∈ (parseConcatKey key).toList ↔
      ∃ f ∈ keyFields key, '"' ∈ f.toList := by
    constructor
    · intro h
      obtain hsep | ⟨name, hname, hc⟩ := Strings.mem_of_mem_join h
      · exact absurd hsep (by decide)
      · obtain ⟨f, hf, hname⟩ := List.mem_flatMap.1 hname
        exact ⟨f, hf, mem_of_mem_parseName hname hc⟩
    · rintro ⟨f, hf, hc⟩
      obtain ⟨name, hname, hc⟩ := exists_quote_parseName hc
      exact Strings.mem_join (List.mem_flatMap.2 ⟨f, hf, hname⟩) hc
  have hindex : Unindexed (parseConcatKey key) ↔ ∀ f ∈ keyFields key, Unindexed (stem f) := by
    by_cases hne : splitConcatKey key = []
    · have hkey : parseConcatKey key = "" := by
        rw [parseConcatKey, hne]
        rfl
      have hfields : keyFields key = [] := by
        rw [splitConcatKey_eq_flatMap] at hne
        cases hf : keyFields key with
        | nil => rfl
        | cons f rest =>
            rw [hf, List.flatMap_cons] at hne
            exact absurd (List.append_eq_nil_iff.1 hne).1 (parseName_ne_nil f)
      rw [hkey, hfields]
      exact iff_of_true (by decide) fun f hf => absurd hf List.not_mem_nil
    · simp only [← unindexed_parseName_iff]
      rw [Unindexed, parseConcatKey, show "." = String.ofList ['.'] from rfl,
        Strings.split_join_eq_flatMap hne, splitConcatKey_eq_flatMap]
      simp only [List.mem_flatMap, Unindexed]
      constructor
      · exact fun h f hf name hname seg hseg => h seg ⟨name, ⟨f, hf, hname⟩, hseg⟩
      · rintro h seg ⟨name, ⟨f, hf, hname⟩, hseg⟩
        exact h f hf name hname seg hseg
  rw [parseConcatKey_eq_self_iff, hquote, hindex, Settled]
  constructor
  · exact fun h f hf => ⟨fun hc => h.1 ⟨f, hf, hc⟩, h.2 f hf⟩
  · refine fun h => ⟨?_, fun f hf => (h f hf).2⟩
    rintro ⟨f, hf, hc⟩
    exact (h f hf).1 hc

/-! ## The slice of keys -/

section Calls

variable [Regexp.UnicodeTables]

theorem keys_of_mask {t n : Node} {keys keys' : List String} (h : t.mask keys = .ok (n, keys')) :
    keys' = keys.map parseConcatKey := by
  rw [Node.mask, Go.bind_eq_ok] at h
  obtain ⟨⟨validKeys, keys''⟩, hvalid, hreturn⟩ := h
  obtain ⟨_, rfl⟩ := Prod.mk.inj (Except.ok.inj hreturn)
  rw [Node.validateKeyList, Go.bind_eq_ok] at hvalid
  obtain ⟨newKeys, _, hvalid⟩ := hvalid
  exact (Prod.mk.inj (Except.ok.inj hvalid)).2.symm

theorem keys_of_extract {t n : Node} {keys keys' : List String}
    (h : t.extract keys = .ok (n, keys')) : keys' = keys.map parseConcatKey := by
  rw [Node.extract, Go.bind_eq_ok] at h
  obtain ⟨⟨validKeys, keys''⟩, hvalid, hreturn⟩ := h
  simp only [Go.bind_eq_ok] at hreturn
  obtain ⟨⟨node, _⟩, _, hreturn⟩ := hreturn
  obtain ⟨_, rfl⟩ := Prod.mk.inj (Except.ok.inj hreturn)
  rw [Node.validateKeyList, Go.bind_eq_ok] at hvalid
  obtain ⟨newKeys, _, hvalid⟩ := hvalid
  exact (Prod.mk.inj (Except.ok.inj hvalid)).2.symm

/-- **When both calls use the same keys.**  For the keys of a slice, parsing twice is parsing once,
and a second call of `Mask` or `Extract` with the slice that the first has left goes by the same
keys, exactly if every key is settled. -/
theorem normalised_keys_stable_iff (keys : List String) :
    ((∀ k ∈ keys, parseConcatKey (parseConcatKey k) = parseConcatKey k) ∧
      ∀ (org req orgNode reqNode : Node) (keys₁ keys₂ : List String),
        (org.mask keys = .ok (orgNode, keys₁) → req.mask keys₁ = .ok (reqNode, keys₂) →
          keys₂ = keys₁) ∧
        (org.extract keys = .ok (orgNode, keys₁) → req.extract keys₁ = .ok (reqNode, keys₂) →
          keys₂ = keys₁)) ↔
      ∀ k ∈ keys, Settled k := by
  simp only [stable_iff]
  refine and_iff_left_of_imp fun hsettled => ?_
  have htwice : (keys.map parseConcatKey).map parseConcatKey = keys.map parseConcatKey := by
    rw [List.map_map]
    exact List.map_congr_left fun k hk => (stable_iff k).2 (hsettled k hk)
  intro org req orgNode reqNode keys₁ keys₂
  constructor
  · intro h₁ h₂
    rw [keys_of_mask h₂, keys_of_mask h₁, htwice]
  · intro h₁ h₂
    rw [keys_of_extract h₂, keys_of_extract h₁, htwice]

end Calls

/-- A name with two indices: the first pass splits off one, the second the other.  One and the same
tree is masked as the signed document and as the request, and only the request loses an element. -/
theorem mask_two_indices :
    letI := Regexp.UnicodeTables.empty
    let t : Node := .map [("a", .slice [.slice [.value (.str "x"), .value (.str "y")]])]
    let keys := ["a[0][1]"]
    parseConcatKey "a[0][1]" = "a[0].1" ∧ parseConcatKey (parseConcatKey "a[0][1]") = "a.0.1" ∧
      t.mask keys = .ok (t, ["a[0].1"]) ∧
      t.mask ["a[0].1"] = .ok (.map [("a", .slice [.slice [.value (.str "x")]])], ["a.0.1"]) := by
  intro t keys
  let _ := Regexp.UnicodeTables.empty
  have hfirst : parseConcatKey "a[0][1]" = "a[0].1" := by decide +kernel
  have hsecond : parseConcatKey "a[0].1" = "a.0.1" := by decide +kernel
  refine ⟨hfirst, by rw [hfirst, hsecond], ?_, ?_⟩
  · rw [mask_eq_recursiveMask _ (by decide +kernel), List.map_singleton, hfirst]
    rfl
  · rw [mask_eq_recursiveMask _ (by decide +kernel), List.map_singleton, hsecond]
    rfl

end Mapnode
end IntegrityShield
