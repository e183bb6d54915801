/-
# Expanding an index wildcard

`generateKeyList` of `shield/pkg/util/mapnode/node.go` turns `foo[].bar` into the keys of
the places that exist.  It keeps one index for each `[]` and counts the last one up for as
long as the place exists.  No index is ever set back: once the last one has run out, the
same place is found missing once more for each of the others, and the loop ends.  So it
returns the keys of the tuples `0, …, 0, x` up to the first `x` that is missing
(`keyRounds_of_least`), or, if there is none, never ends (`keyRounds_of_forall`).

Whether a place exists is asked with the text of a key, which is parsed anew in every
round.  With a quote in it the CSV reader is used, and if that rejects the key or ends the
record before the index, the answer is the same in every round: `expansion_returns_iff`
says for which keys and trees the loop ends.  What it returns is to be every tuple of
indices that exists, in order; `generateKeyList_complete_iff` says when it is.
-/

import IntegrityShield.Mapnode.Faithful
import IntegrityShield.Mapnode.Mask
import Mathlib.Algebra.Order.BigOperators.Group.List
import Mathlib.Data.Set.Card

namespace IntegrityShield
namespace Mapnode

/-! ## The rounds of the loop -/

/-- The indices that the loop gets to: all but the last are zero. -/
def countedIndices (n x : ℕ) : List ℕ := List.replicate n 0 ++ [x]

theorem countedIndices_injective (n : ℕ) : Function.Injective (countedIndices n) := by
  intro x y h
  exact List.singleton_inj.1 (List.append_cancel_left h)

section Rounds

variable (t : Node) (parts : List String)

/-- Whether the place of some indices exists, as the loop asks for it. -/
def Node.placeExists (indexList : List ℕ) : Bool := t.keyExists (roundKeys parts indexList).2

/-- The index that is counted up is the last one that has not run out. -/
theorem notFinished_eq (j k : ℕ) :
    let finished := List.replicate (j + 1) false ++ List.replicate k true
    finished.length - 1 - finished.reverse.findIdx (· == false) = j := by
  have hfind :
      (List.replicate k true ++ List.replicate (j + 1) false).findIdx (· == false) = k := by
    induction k with
    | zero => rfl
    | succ k ih => rw [List.replicate_succ, List.cons_append, List.findIdx_cons, ih]; rfl
  simp only [List.reverse_append, List.reverse_replicate, hfind, List.length_append,
    List.length_replicate]
  omega

theorem finish_eq (j k : ℕ) :
    (List.replicate (j + 1) false ++ List.replicate k true).set j true =
      List.replicate j false ++ List.replicate (k + 1) true := by
  induction j with
  | zero => rfl
  | succ j ih =>
      rw [List.replicate_succ, List.cons_append, List.set_cons_succ, ih, List.replicate_succ]
      rfl

/-- One round, when the last `k` indices have run out. -/
theorem keyRounds_succ (fuel : ℕ) (indexList : List ℕ) (j k : ℕ) :
    keyRounds t parts (fuel + 1) indexList
        (List.replicate (j + 1) false ++ List.replicate k true) =
      if t.placeExists parts indexList then
        (keyRounds t parts fuel (indexList.modify j (· + 1))
          (List.replicate (j + 1) false ++ List.replicate k true)).map
            ((roundKeys parts indexList).1 :: ·)
      else if j = 0 then .ok []
      else keyRounds t parts fuel indexList
        (List.replicate j false ++ List.replicate (k + 1) true) := by
  have hhead :
      (List.replicate j false ++ List.replicate (k + 1) true).head? = some true ↔ j = 0 := by
    cases j <;> simp [List.replicate_succ]
  rw [keyRounds]
  simp only [notFinished_eq, finish_eq, hhead]
  rfl

/-- When the place is missing, the indices run out one after the other. -/
theorem keyRounds_of_missing {indexList : List ℕ} (hmissing : t.placeExists parts indexList = false)
    {j k fuel : ℕ} (hfuel : j < fuel) :
    keyRounds t parts fuel indexList (List.replicate (j + 1) false ++ List.replicate k true) =
      .ok [] := by
  induction j generalizing k fuel with
  | zero =>
      obtain ⟨fuel, rfl⟩ := Nat.exists_eq_add_of_lt hfuel
      rw [keyRounds_succ, hmissing, if_neg Bool.false_ne_true, if_pos rfl]
  | succ j ih =>
      obtain ⟨fuel, rfl⟩ := Nat.exists_eq_add_of_lt (Nat.zero_lt_of_lt hfuel)
      rw [Nat.zero_add] at hfuel ⊢
      rw [keyRounds_succ, hmissing, if_neg Bool.false_ne_true, if_neg (Nat.succ_ne_zero j)]
      exact ih (by omega)

/-- While the place exists, the last index is counted up. -/
theorem keyRounds_of_exists {n x : ℕ} (hexists : t.placeExists parts (countedIndices n x) = true)
    (fuel : ℕ) :
    keyRounds t parts (fuel + 1) (countedIndices n x) (List.replicate (n + 1) false) =
      (keyRounds t parts fuel (countedIndices n (x + 1)) (List.replicate (n + 1) false)).map
        ((roundKeys parts (countedIndices n x)).1 :: ·) := by
  have hcount : ∀ n, (countedIndices n x).modify n (· + 1) = countedIndices n (x + 1) := by
    intro n
    induction n with
    | zero => rfl
    | succ n ih => exact congrArg (0 :: ·) ih
  have hround := keyRounds_succ t parts fuel (countedIndices n x) n 0
  rw [List.replicate_zero, List.append_nil, hexists, if_pos rfl, hcount] at hround
  exact hround

/-- **What the loop returns**: the keys up to the first place that is missing. -/
theorem keyRounds_of_least {n m : ℕ} (hmissing : t.placeExists parts (countedIndices n m) = false)
    (hexists : ∀ x < m, t.placeExists parts (countedIndices n x) = true) {fuel : ℕ}
    (hfuel : m + n < fuel) :
    keyRounds t parts fuel (countedIndices n 0) (List.replicate (n + 1) false) =
      .ok ((List.range m).map fun x => (roundKeys parts (countedIndices n x)).1) := by
  have hfrom : ∀ d x fuel, x + d = m → d + n < fuel →
      keyRounds t parts fuel (countedIndices n x) (List.replicate (n + 1) false) =
        .ok ((List.range' x d).map fun x => (roundKeys parts (countedIndices n x)).1) := by
    intro d
    induction d with
    | zero =>
        rintro x fuel rfl hfuel
        have hend := keyRounds_of_missing t parts hmissing (k := 0) (by omega : n < fuel)
        rw [List.replicate_zero, List.append_nil] at hend
        exact hend
    | succ d ih =>
        intro x fuel hx hfuel
        obtain ⟨fuel, rfl⟩ := Nat.exists_eq_add_of_lt (Nat.zero_lt_of_lt hfuel)
        rw [Nat.zero_add] at hfuel ⊢
        rw [keyRounds_of_exists t parts (hexists x (by omega)),
          ih (x + 1) fuel (by omega) (by omega)]
        rfl
  rw [List.range_eq_range']
  exact hfrom m 0 fuel (Nat.zero_add m) hfuel

/-- If no place is missing, the loop does not end. -/
theorem keyRounds_of_forall {n : ℕ}
    (hexists : ∀ x, t.placeExists parts (countedIndices n x) = true) (fuel x : ℕ) :
    keyRounds t parts fuel (countedIndices n x) (List.replicate (n + 1) false) =
      .error .diverges := by
  induction fuel generalizing x with
  | zero => rfl
  | succ fuel ih =>
      rw [keyRounds_of_exists t parts (hexists x), ih]
      rfl

end Rounds

/-! ## The text of a round -/

/-- The parts of a key between its wildcards, without the dots at their ends. -/
def keyParts (key : String) : List String :=
  (splitBrackets key.toList).map fun p => Strings.trim (String.ofList p) "."

/-- The number of wildcards of a key. -/
def wildcards (key : String) : ℕ := (keyParts key).length - 1

theorem splitBrackets_ne_nil (l : List Char) : splitBrackets l ≠ [] := by
  induction l using splitBrackets.induct with
  | case1 => rw [splitBrackets]; exact List.cons_ne_nil _ _
  | case2 t ih => rw [splitBrackets]; exact List.cons_ne_nil _ _
  | case3 c t hc _ ih => exact absurd ‹splitBrackets t = []› ih
  | case4 c t hc p ps h ih =>
      rw [splitBrackets, h]
      · exact List.cons_ne_nil _ _
      · exact hc

theorem infix_iff_splitBrackets (l : List Char) :
    ['[', ']'] <:+: l ↔ 1 < (splitBrackets l).length := by
  induction l using splitBrackets.induct with
  | case1 =>
      rw [splitBrackets]
      decide
  | case2 t ih =>
      rw [splitBrackets, List.length_cons]
      have hpos := List.length_pos_of_ne_nil (splitBrackets_ne_nil t)
      exact iff_of_true ⟨[], t, rfl⟩ (by omega)
  | case3 c t hc _ ih => exact absurd ‹splitBrackets t = []› (splitBrackets_ne_nil t)
  | case4 c t hc p ps h ih =>
      rw [splitBrackets, h]
      · rw [h] at ih
        rw [List.infix_cons_iff, ih]
        refine or_iff_right ?_
        rintro ⟨rest, hrest⟩
        obtain ⟨rfl, rfl⟩ := List.cons.inj hrest
        exact hc rest rfl rfl
      · exact hc

theorem splitBrackets_cons {c : Char} (hc : c ≠ '[') (l : List Char) :
    splitBrackets (c :: l) = (splitBrackets l).modifyHead (c :: ·) := by
  rw [splitBrackets]
  · cases h : splitBrackets l with
    | nil => exact absurd h (splitBrackets_ne_nil l)
    | cons p ps => rfl
  · exact fun t h _ => hc h

/-- Splitting at the first wildcard. -/
theorem splitBrackets_append {l : List Char} (h : '[' ∉ l) (r : List Char) :
    splitBrackets (l ++ '[' :: ']' :: r) = l :: splitBrackets r := by
  induction l with
  | nil => rw [List.nil_append, splitBrackets]
  | cons c l ih =>
      obtain ⟨hc, hl⟩ := not_or.1 (mt List.mem_cons.2 h)
      rw [List.cons_append, splitBrackets_cons (Ne.symm hc), ih hl]
      rfl

theorem splitBrackets_of_not_mem {l : List Char} (h : '[' ∉ l) : splitBrackets l = [l] := by
  induction l with
  | nil => rw [splitBrackets]
  | cons c l ih =>
      obtain ⟨hc, hl⟩ := not_or.1 (mt List.mem_cons.2 h)
      rw [splitBrackets_cons (Ne.symm hc), ih hl]
      rfl

/-- A key is expanded when it has a wildcard. -/
theorem contains_brackets_iff (key : String) :
    Strings.contains key "[]" = true ↔ 0 < wildcards key := by
  rw [Strings.contains_iff, wildcards, keyParts, List.length_map]
  exact (infix_iff_splitBrackets key.toList).trans (by omega)

theorem not_contains_brackets {key : String} (h : wildcards key = 0) :
    ¬Strings.contains key "[]" = true :=
  fun hc => absurd h ((contains_brackets_iff key).1 hc).ne'

/-- The text of the parts up to an index, with a dot after each part and index. -/
def roundBody (places : List (String × ℕ)) : String :=
  String.join (places.map fun p => p.1 ++ "." ++ Strings.itoa p.2 ++ ".")

theorem roundBody_append (places places' : List (String × ℕ)) :
    roundBody (places ++ places') = roundBody places ++ roundBody places' := by
  rw [roundBody, List.map_append, String.join_append, ← roundBody, ← roundBody]

theorem roundKeys_snd (parts : List String) (indexList : List ℕ) :
    (roundKeys parts indexList).2 = Strings.trimSuffix (roundBody (parts.zip indexList)) "." :=
  rfl

theorem roundKeys_fst (parts : List String) (indexList : List ℕ) :
    (roundKeys parts indexList).1 =
      Strings.trimSuffix (roundBody (parts.zip indexList) ++ parts.getLast?.getD "") "." :=
  rfl

/-- The text before the last index, while the others are zero. -/
def checkStem (parts : List String) (n : ℕ) : String :=
  roundBody (parts.zip (List.replicate n 0)) ++ parts.getD n ""

theorem zip_countedIndices (parts : List String) {n : ℕ} (hn : n < parts.length) (x : ℕ) :
    parts.zip (countedIndices n x) =
      parts.zip (List.replicate n 0) ++ [(parts.getD n "", x)] := by
  induction n generalizing parts with
  | zero =>
      obtain ⟨p, rest, rfl⟩ := List.exists_cons_of_length_pos hn
      simp [countedIndices]
  | succ n ih =>
      obtain ⟨p, rest, rfl⟩ := List.exists_cons_of_length_pos (Nat.zero_lt_of_lt hn)
      have hrest := ih rest (Nat.lt_of_succ_lt_succ hn)
      rw [countedIndices, List.replicate_succ, List.cons_append, List.zip_cons_cons,
        ← countedIndices, hrest]
      rfl

/-- The check key counts up behind a text that stays the same. -/
theorem checkKey_eq (parts : List String) {n : ℕ} (hn : n < parts.length) (x : ℕ) :
    (roundKeys parts (countedIndices n x)).2 = checkStem parts n ++ "." ++ Strings.itoa x := by
  have hbody : roundBody (parts.zip (countedIndices n x)) =
      checkStem parts n ++ "." ++ Strings.itoa x ++ "." := by
    rw [zip_countedIndices parts hn, roundBody_append, checkStem]
    simp [roundBody, String.append_assoc]
  rw [roundKeys_snd, hbody, Strings.trimSuffix_append]

/-! ## Where the counting ends -/

theorem plainField_itoa (x : ℕ) : Csv.PlainField '.' (Strings.itoa x).toList := by
  intro c hc
  have hdigit := Strings.isDigit_of_mem_itoa hc
  refine ⟨?_, ?_, ?_, ?_⟩ <;> rintro rfl <;> exact absurd hdigit (by decide)

theorem fieldNodes_eq (children : List (String × Node)) :
    fieldNodes children = (children.map fun c => c.2.nodes).sum := by
  induction children with
  | nil => rfl
  | cons c rest ih => rw [fieldNodes, ih, List.map_cons, List.sum_cons]

theorem elemNodes_eq (children : List Node) :
    elemNodes children = (children.map Node.nodes).sum := by
  induction children with
  | nil => rfl
  | cons c rest ih => rw [elemNodes, ih, List.map_cons, List.sum_cons]

theorem one_le_nodes (t : Node) : 1 ≤ t.nodes := by
  cases t <;> rw [Node.nodes] <;> omega

theorem length_le_fieldNodes (children : List (String × Node)) :
    children.length ≤ fieldNodes children := by
  rw [fieldNodes_eq, ← List.length_map fun c : String × Node => c.2.nodes]
  refine List.length_le_sum_of_one_le _ fun n hn => ?_
  obtain ⟨c, _, rfl⟩ := List.mem_map.1 hn
  exact one_le_nodes c.2

theorem length_le_elemNodes (children : List Node) : children.length ≤ elemNodes children := by
  rw [elemNodes_eq, ← List.length_map Node.nodes]
  refine List.length_le_sum_of_one_le _ fun n hn => ?_
  obtain ⟨c, _, rfl⟩ := List.mem_map.1 hn
  exact one_le_nodes c

theorem mem_of_lookup_eq_some {α : Type} {children : List (String × α)} {name : String} {child : α}
    (h : children.lookup name = some child) : (name, child) ∈ children := by
  obtain ⟨l, l', rfl, _⟩ := List.lookup_eq_some_iff.1 h
  exact List.mem_append_right l List.mem_cons_self

theorem nodes_getChild {t child : Node} {name : String} (h : t.getChild name = some child) :
    child.nodes ≤ t.nodes := by
  cases t with
  | null => cases h
  | value v => cases h
  | map children =>
      have hle := List.le_sum_of_mem
        (List.mem_map_of_mem (f := fun c : String × Node => c.2.nodes) (mem_of_lookup_eq_some h))
      rw [Node.nodes, fieldNodes_eq]
      exact hle.trans (Nat.le_add_left _ _)
  | slice children =>
      have hmem : child ∈ children := by
        rw [Node.getChild] at h
        split at h
        · split at h
          · cases h
          · exact List.mem_of_getElem? h
        · cases h
      have hle := List.le_sum_of_mem (List.mem_map_of_mem (f := Node.nodes) hmem)
      rw [Node.nodes, elemNodes_eq]
      exact hle.trans (Nat.le_add_left _ _)

theorem nodes_foldlM_getChild {names : List String} {t node : Node}
    (h : names.foldlM Node.getChild t = some node) : node.nodes ≤ t.nodes := by
  induction names generalizing t with
  | nil =>
      obtain rfl := Option.some.inj h
      exact le_rfl
  | cons name rest ih =>
      rw [List.foldlM_cons] at h
      obtain ⟨child, hchild, hrest⟩ := Option.bind_eq_some_iff.1 h
      exact (ih hrest).trans (nodes_getChild hchild)

/-- A node does not have a child at every index. -/
theorem exists_getChild_eq_none (t : Node) :
    ∃ m ≤ t.nodes, t.getChild (Strings.itoa m) = none := by
  cases t with
  | null => exact ⟨0, Nat.zero_le _, rfl⟩
  | value v => exact ⟨0, Nat.zero_le _, rfl⟩
  | map children =>
      by_contra! hall
      -- the indices would all be names of the map, which has fewer names than nodes
      have hsubset :
          (List.range (children.length + 1)).map Strings.itoa ⊆ children.map Prod.fst := by
        intro name hname
        obtain ⟨m, hm, rfl⟩ := List.mem_map.1 hname
        have hle : m ≤ (Node.map children).nodes := by
          have hlength := length_le_fieldNodes children
          have hm' := List.mem_range.1 hm
          rw [Node.nodes]
          omega
        obtain ⟨child, hchild⟩ := Option.ne_none_iff_exists'.1 (hall m hle)
        exact List.mem_map_of_mem (f := Prod.fst) (mem_of_lookup_eq_some hchild)
      have hnodup : ((List.range (children.length + 1)).map Strings.itoa).Nodup :=
        List.nodup_range.map itoa_injective
      have hlength := (hnodup.subperm hsubset).length_le
      rw [List.length_map, List.length_map, List.length_range] at hlength
      omega
  | slice children =>
      refine ⟨children.length, ?_, ?_⟩
      · have hlength := length_le_elemNodes children
        rw [Node.nodes]
        omega
      · rw [Node.getChild, Strings.atoi_itoa]
        split_ifs
        · simp
        · rfl

theorem keyExists_of_names {t : Node} {key : String} {names : List String} {x : ℕ}
    (h : splitConcatKey key = names ++ [Strings.itoa x]) :
    t.keyExists key =
      ((names.foldlM Node.getChild t).bind (·.getChild (Strings.itoa x))).isSome := by
  rw [Node.keyExists, Node.getNode, h, List.foldlM_append]
  simp only [List.foldlM_cons, List.foldlM_nil, bind_pure]
  rfl

/-- Behind names that stay the same some index is missing. -/
theorem exists_missing_of_names {t : Node} {stem : String} {names : List String}
    (h : ∀ x, splitConcatKey (stem ++ "." ++ Strings.itoa x) = names ++ [Strings.itoa x]) :
    ∃ m ≤ t.nodes, t.keyExists (stem ++ "." ++ Strings.itoa m) = false := by
  cases hnode : names.foldlM Node.getChild t with
  | none =>
      refine ⟨0, Nat.zero_le _, ?_⟩
      rw [keyExists_of_names (h 0), hnode]
      rfl
  | some node =>
      obtain ⟨m, hm, hnone⟩ := exists_getChild_eq_none node
      refine ⟨m, hm.trans (nodes_foldlM_getChild hnode), ?_⟩
      rw [keyExists_of_names (h m), hnode, Option.bind_some, hnone]
      rfl

/-- The text before the index ends the counting: it has no quote, or the CSV reader accepts it
and either reads the index into the record or finds no such place. -/
def Countable (t : Node) (stem : String) : Prop :=
  '"' ∉ stem.toList ∨
    ((Csv.read '.' (stem ++ ".0")).isSome = true ∧
      (Csv.read '.' (stem ++ ".0") ≠ Csv.read '.' (stem ++ ".1") ∨
        t.keyExists (stem ++ ".0") = false))

instance (t : Node) (stem : String) : Decidable (Countable t stem) :=
  inferInstanceAs (Decidable (_ ∨ _))

theorem splitConcatKey_of_quote {key : String} (hquote : '"' ∈ key.toList) :
    splitConcatKey key = ((Csv.read '.' key).getD []).flatMap parseName := by
  rw [splitConcatKey, if_pos ((Strings.contains_char_iff key '"').2 hquote)]

/-- **Where the counting ends.**  Without quotes the index is the last name of the place, and
some index is missing.  With quotes the key is rejected and stands for the root, or the index
is the last name, or the record has ended before it. -/
theorem countable_cases (t : Node) (stem : String) :
    (Countable t stem ∧ ∃ m ≤ t.nodes, t.keyExists (stem ++ "." ++ Strings.itoa m) = false) ∨
      (¬Countable t stem ∧ ∀ x, t.keyExists (stem ++ "." ++ Strings.itoa x) = true) := by
  by_cases hquote : '"' ∈ stem.toList
  · have hnames : ∀ x, splitConcatKey (stem ++ "." ++ Strings.itoa x) =
        ((Csv.read '.' (stem ++ "." ++ Strings.itoa x)).getD []).flatMap parseName := by
      intro x
      refine splitConcatKey_of_quote ?_
      rw [String.toList_append, String.toList_append]
      exact List.mem_append_left _ (List.mem_append_left _ hquote)
    have htext : ∀ x,
        stem ++ "." ++ Strings.itoa x = stem ++ String.ofList ['.'] ++ Strings.itoa x :=
      fun _ => rfl
    have hzero : stem ++ ".0" = stem ++ "." ++ Strings.itoa 0 := by
      rw [String.append_assoc]; rfl
    have hone : stem ++ ".1" = stem ++ "." ++ Strings.itoa 1 := by
      rw [String.append_assoc]; rfl
    rw [Countable, or_iff_right (not_not_intro hquote), hzero, hone]
    rcases @Csv.read_append '.' (by decide) stem with hnone | ⟨before, hlast⟩ | ⟨record, hended⟩
    · -- no names are left, and the root exists
      refine Or.inr ⟨?_, fun x => ?_⟩
      · rintro ⟨hsome, _⟩
        rw [htext, hnone _ (plainField_itoa 0)] at hsome
        cases hsome
      · rw [Node.keyExists, Node.getNode, hnames x, htext, hnone _ (plainField_itoa x)]
        rfl
    · have hindex : ∀ x, splitConcatKey (stem ++ "." ++ Strings.itoa x) =
          before.flatMap parseName ++ [Strings.itoa x] := by
        intro x
        rw [hnames x, htext, hlast _ (plainField_itoa x), Option.getD_some, List.flatMap_append,
          List.flatMap_singleton, parseName_itoa]
      refine Or.inl ⟨?_, exists_missing_of_names hindex⟩
      rw [htext, htext, hlast _ (plainField_itoa 0), hlast _ (plainField_itoa 1)]
      refine ⟨rfl, Or.inl fun h => ?_⟩
      have hfields := List.append_cancel_left (Option.some.inj h)
      exact absurd (itoa_injective (List.singleton_inj.1 hfields)) Nat.zero_ne_one
    · have hsame : ∀ x, t.keyExists (stem ++ "." ++ Strings.itoa x) =
          t.keyExists (stem ++ "." ++ Strings.itoa 0) := by
        intro x
        rw [Node.keyExists, Node.getNode, hnames x, Node.keyExists, Node.getNode, hnames 0, htext,
          htext, hended _ (plainField_itoa x), hended _ (plainField_itoa 0)]
      rw [htext 0, htext 1, hended _ (plainField_itoa 0), hended _ (plainField_itoa 1), ← htext 0]
      cases hfound : t.keyExists (stem ++ "." ++ Strings.itoa 0) with
      | false => exact Or.inl ⟨⟨rfl, Or.inr rfl⟩, 0, Nat.zero_le _, hfound⟩
      | true =>
          refine Or.inr ⟨?_, fun x => (hsame x).trans hfound⟩
          rintro ⟨_, hne | hmissing⟩
          · exact hne rfl
          · cases hmissing
  · have hindex : ∀ x, splitConcatKey (stem ++ "." ++ Strings.itoa x) =
        splitConcatKey stem ++ [Strings.itoa x] := by
      intro x
      rw [splitConcatKey_append hquote (plainField_itoa x).quote_not_mem, splitConcatKey_itoa]
    exact Or.inl ⟨Or.inl hquote, exists_missing_of_names hindex⟩

/-! ## When the expansion ends -/

/-- The loop of `generateKeyList`, left running for some number of rounds. -/
def Node.expansion (t : Node) (key : String) (rounds : ℕ) : Go (List String) :=
  if Strings.contains key "[]" then
    keyRounds t (keyParts key) rounds (List.replicate (wildcards key) 0)
      (List.replicate (wildcards key) false)
  else .ok []

theorem generateKeyList_eq (t : Node) (key : String) :
    t.generateKeyList key = t.expansion key (wildcards key * (t.nodes + 1) + 1) :=
  rfl

/-- The tuples of indices, one for each wildcard of the key, whose place exists. -/
def Node.existing (t : Node) (key : String) : Set (List ℕ) :=
  {v | v.length = wildcards key ∧ t.placeExists (keyParts key) v = true}

/-- A key with wildcards, and the text before its last one. -/
theorem expansion_of_wildcards {key : String} {n : ℕ} (h : wildcards key = n + 1) (t : Node)
    (rounds : ℕ) : t.expansion key rounds = keyRounds t (keyParts key) rounds (countedIndices n 0)
      (List.replicate (n + 1) false) := by
  have hcontains : Strings.contains key "[]" = true :=
    (contains_brackets_iff key).2 (h ▸ Nat.succ_pos n)
  rw [Node.expansion, if_pos hcontains, h, List.replicate_succ', countedIndices]

theorem placeExists_counted {key : String} {n : ℕ} (h : wildcards key = n + 1) (t : Node) (x : ℕ) :
    t.placeExists (keyParts key) (countedIndices n x) =
      t.keyExists (checkStem (keyParts key) n ++ "." ++ Strings.itoa x) := by
  have hn : n < (keyParts key).length := by
    rw [wildcards] at h
    omega
  rw [Node.placeExists, checkKey_eq _ hn]

/-- **When the expansion ends**, and what it returns: one key for each index up to the first
that is missing, in as many rounds as the model gives it. -/
theorem expansion_of_countable {t : Node} {key : String} {n : ℕ} (h : wildcards key = n + 1)
    (hcount : Countable t (checkStem (keyParts key) n)) :
    ∃ m, t.placeExists (keyParts key) (countedIndices n m) = false ∧
      (∀ x < m, t.placeExists (keyParts key) (countedIndices n x) = true) ∧
      ∀ rounds, wildcards key * (t.nodes + 1) < rounds → t.expansion key rounds =
        .ok ((List.range m).map fun x => (roundKeys (keyParts key) (countedIndices n x)).1) := by
  obtain ⟨_, m₀, hle, hm₀⟩ | ⟨hnot, _⟩ := countable_cases t (checkStem (keyParts key) n)
  case inr => exact absurd hcount hnot
  rw [← placeExists_counted h] at hm₀
  have hex : ∃ m, t.placeExists (keyParts key) (countedIndices n m) = false := ⟨m₀, hm₀⟩
  have hexists : ∀ x < Nat.find hex, t.placeExists (keyParts key) (countedIndices n x) = true :=
    fun x hx => Bool.not_eq_false _ ▸ Nat.find_min hex hx
  refine ⟨Nat.find hex, Nat.find_spec hex, hexists, fun rounds hrounds => ?_⟩
  rw [expansion_of_wildcards h]
  refine keyRounds_of_least t _ (Nat.find_spec hex) hexists ?_
  have hfirst : Nat.find hex ≤ t.nodes := (Nat.find_min' hex hm₀).trans hle
  have hmul : t.nodes + (n + 1) ≤ wildcards key * (t.nodes + 1) := by
    rw [h, Nat.mul_succ, Nat.succ_mul]
    omega
  omega

theorem expansion_of_not_countable {t : Node} {key : String} {n : ℕ} (h : wildcards key = n + 1)
    (hcount : ¬Countable t (checkStem (keyParts key) n)) (rounds : ℕ) :
    t.expansion key rounds = .error .diverges := by
  rw [expansion_of_wildcards h]
  obtain ⟨hyes, _⟩ | ⟨_, hexists⟩ := countable_cases t (checkStem (keyParts key) n)
  · exact absurd hyes hcount
  · exact keyRounds_of_forall t _ (fun x => (placeExists_counted h t x).trans (hexists x)) rounds 0

/-- The keys of the places that exist are no more than those places. -/
theorem length_le_existing {t : Node} {key : String} {n m : ℕ} (h : wildcards key = n + 1)
    (hexists : ∀ x < m, t.placeExists (keyParts key) (countedIndices n x) = true) :
    (m : ℕ∞) ≤ (t.existing key).encard := by
  classical
  have hsub :
      ((((List.range m).map (countedIndices n)).toFinset : Finset (List ℕ)) : Set (List ℕ)) ⊆
      t.existing key := by
    intro v hv
    rw [Finset.mem_coe, List.mem_toFinset] at hv
    obtain ⟨x, hx, rfl⟩ := List.mem_map.1 hv
    refine ⟨?_, hexists x (List.mem_range.1 hx)⟩
    rw [countedIndices, List.length_append, List.length_replicate, h, List.length_singleton]
  have hcard := Set.encard_le_encard hsub
  rwa [Set.encard_coe_eq_coe_finsetCard, List.toFinset_card_of_nodup
    (List.nodup_range.map (countedIndices_injective n)), List.length_map,
    List.length_range] at hcard

/-- The expansion of a key ends: it has no wildcard, or the text before the last one is one to
count behind. -/
def Node.Expandable (t : Node) (key : String) : Prop :=
  Strings.contains key "[]" = true → Countable t (checkStem (keyParts key) (wildcards key - 1))

/-- **When key expansion terminates.**  The loop returns after finitely many rounds, with no more
keys than there are tuples of indices whose place exists, exactly when the key is
`Expandable`. -/
theorem expansion_returns_iff (t : Node) (key : String) :
    (∃ rounds keys, t.expansion key rounds = .ok keys ∧ t.generateKeyList key = .ok keys ∧
        (keys.length : ℕ∞) ≤ (t.existing key).encard) ↔ t.Expandable key := by
  rw [Node.Expandable]
  cases hwild : wildcards key with
  | zero =>
      have hno := not_contains_brackets hwild
      refine iff_of_true ⟨0, [], ?_, ?_, zero_le⟩ fun hc => absurd hc hno
      · rw [Node.expansion, if_neg hno]
      · rw [generateKeyList_eq, Node.expansion, if_neg hno]
  | succ n =>
      have hcontains : Strings.contains key "[]" = true :=
        (contains_brackets_iff key).2 (hwild ▸ Nat.succ_pos n)
      rw [Nat.add_sub_cancel, forall_prop_of_true hcontains]
      constructor
      · rintro ⟨rounds, keys, hreturns, _⟩
        by_contra hcount
        rw [expansion_of_not_countable hwild hcount] at hreturns
        cases hreturns
      · intro hcount
        obtain ⟨m, _, hexists, hreturns⟩ := expansion_of_countable hwild hcount
        refine ⟨_, _, hreturns _ (Nat.lt_succ_self _), ?_, ?_⟩
        · rw [generateKeyList_eq]
          exact hreturns _ (Nat.lt_succ_self _)
        · rw [List.length_map, List.length_range]
          exact length_le_existing hwild hexists

/-- The mask key `"a""b[]"` is a quoted name with a quote in it.  Parsed it is `a"b[]`, which the
CSV reader rejects in every round, so that every index seems to exist. -/
theorem expansion_quoted_quote :
    parseConcatKey "\"a\"\"b[]\"" = "a\"b[]" ∧
      (∀ rounds, (Node.map []).expansion "a\"b[]" rounds = .error .diverges) ∧
      (Node.map []).validateKeyList ["\"a\"\"b[]\""] = .error .diverges := by
  have hparse : parseConcatKey "\"a\"\"b[]\"" = "a\"b[]" := by decide +kernel
  have hdiverges : ∀ rounds, (Node.map []).expansion "a\"b[]" rounds = .error .diverges :=
    expansion_of_not_countable (by decide +kernel : wildcards "a\"b[]" = 0 + 1) (by decide +kernel)
  refine ⟨hparse, hdiverges, ?_⟩
  rw [Node.validateKeyList, List.map_singleton, hparse, List.mapM_cons, Node.concreteKeys,
    generateKeyList_eq, hdiverges]
  rfl

/-! ## What the expansion is to return -/

/-- The names of a part of a key.  The empty part, before a wildcard that comes first or right
after another one, has none. -/
def partNames (part : String) : List String := if part = "" then [] else splitConcatKey part

/-- The path of a tuple: the names of each part, and its index. -/
def placePath (names : String → List String) (parts : List String) (v : List ℕ) : List String :=
  (parts.zip v).flatMap fun p => names p.1 ++ [Strings.itoa p.2]

/-- The names and indices that lead to the element of a tuple. -/
def elementPath (parts : List String) (v : List ℕ) : List String := placePath partNames parts v

/-- The tree has an element at a tuple of indices, one for each wildcard of the key. -/
def Node.HasElement (t : Node) (key : String) (v : List ℕ) : Prop :=
  v.length = wildcards key ∧
    ((elementPath (keyParts key) v).foldlM Node.getChild t).isSome = true

/-- The names and indices of the place that the key stands for at a tuple. -/
def tuplePath (key : String) (v : List ℕ) : List String :=
  elementPath (keyParts key) v ++ partNames ((keyParts key).getLast?.getD "")

/-- The expansion of a key is complete: one key for each tuple of indices whose element exists,
in the lexicographic order of the tuples. -/
def Node.ExpandsCompletely (t : Node) (key : String) : Prop :=
  ∃ (keys : List String) (tuples : List (List ℕ)), t.generateKeyList key = .ok keys ∧
    tuples.Pairwise (· < ·) ∧ (∀ v, v ∈ tuples ↔ t.HasElement key v) ∧
    keys.map splitConcatKey = tuples.map (tuplePath key)

theorem mem_of_mem_splitBrackets {l p : List Char} {c : Char} (hp : p ∈ splitBrackets l)
    (hc : c ∈ p) : c ∈ l := by
  induction l using splitBrackets.induct generalizing p with
  | case1 =>
      rw [splitBrackets, List.mem_singleton] at hp
      exact hp ▸ hc
  | case2 t ih =>
      rw [splitBrackets] at hp
      rcases List.mem_cons.1 hp with rfl | hp
      · exact absurd hc List.not_mem_nil
      · exact List.mem_cons_of_mem _ (List.mem_cons_of_mem _ (ih hp hc))
  | case3 d t hd h ih => exact absurd h (splitBrackets_ne_nil t)
  | case4 d t hd q qs h ih =>
      rw [splitBrackets, h] at hp
      · rw [h] at ih
        rcases List.mem_cons.1 hp with rfl | hp
        · rcases List.mem_cons.1 hc with rfl | hc
          · exact List.mem_cons_self
          · exact List.mem_cons_of_mem _ (ih List.mem_cons_self hc)
        · exact List.mem_cons_of_mem _ (ih (List.mem_cons_of_mem _ hp) hc)
      · exact hd

/-- The characters of the parts are characters of the key. -/
theorem not_mem_part {key part : String} {c : Char} (hc : c ∉ key.toList)
    (hpart : part ∈ keyParts key) : c ∉ part.toList := by
  intro h
  obtain ⟨p, hp, rfl⟩ := List.mem_map.1 hpart
  rw [Strings.trim, Strings.trimFunc, String.toList_ofList, String.toList_ofList] at h
  have hdrop := (List.dropWhile_suffix _).subset ((List.rdropWhile_prefix _ _).subset h)
  rw [String.toList_ofList] at hdrop
  exact hc (mem_of_mem_splitBrackets hp hdrop)

theorem keyParts_ne_nil (key : String) : keyParts key ≠ [] := by
  rw [keyParts, ne_eq, List.map_eq_nil_iff]
  exact splitBrackets_ne_nil _

theorem getLast_mem_keyParts (key : String) : (keyParts key).getLast?.getD "" ∈ keyParts key := by
  rw [List.getLast?_eq_some_getLast (keyParts_ne_nil key), Option.getD_some]
  exact List.getLast_mem _

theorem not_hasSuffix_part {key part : String} (hpart : part ∈ keyParts key) :
    Strings.hasSuffix part "." = false := by
  obtain ⟨p, hp, rfl⟩ := List.mem_map.1 hpart
  exact Strings.not_hasSuffix_trim (String.ofList p) '.'

/-- A round adds dots and digits to the characters of the parts. -/
theorem not_mem_roundBody {places : List (String × ℕ)} {c : Char} (hdot : c ≠ '.')
    (hdigit : c.isDigit = false) (h : ∀ p ∈ places, c ∉ p.1.toList) :
    c ∉ (roundBody places).toList := by
  induction places with
  | nil => exact List.not_mem_nil
  | cons p rest ih =>
      have hrest := ih fun q hq => h q (List.mem_cons_of_mem p hq)
      rw [← List.singleton_append, roundBody_append, String.toList_append, List.mem_append, not_or]
      refine ⟨?_, hrest⟩
      have hp := h p List.mem_cons_self
      have hindex := not_mem_itoa hdigit p.2
      simp [roundBody, hp, hindex, hdot]

theorem not_mem_roundKeys {key : String} {c : Char} (hdot : c ≠ '.') (hdigit : c.isDigit = false)
    (hc : c ∉ key.toList) (v : List ℕ) : c ∉ (roundKeys (keyParts key) v).1.toList := by
  intro hmem
  rw [roundKeys_fst] at hmem
  have hbody := Strings.mem_of_mem_trimSuffix hmem
  rw [String.toList_append, List.mem_append] at hbody
  rcases hbody with hbody | hlast
  · exact not_mem_roundBody hdot hdigit (fun p hp => not_mem_part hc (List.of_mem_zip hp).1) hbody
  · exact not_mem_part hc (getLast_mem_keyParts key) hlast

/-- The names of the text of some places, without its last dot. -/
theorem roundBody_names {places : List (String × ℕ)} (hne : places ≠ [])
    (h : ∀ p ∈ places, '"' ∉ p.1.toList) :
    ∃ text, roundBody places = text ++ "." ∧ '"' ∉ text.toList ∧
      splitConcatKey text = places.flatMap fun p => splitConcatKey p.1 ++ [Strings.itoa p.2] := by
  induction places with
  | nil => exact absurd rfl hne
  | cons p rest ih =>
      have hp := h p List.mem_cons_self
      have hindex := (plainField_itoa p.2).quote_not_mem
      have hhead : splitConcatKey (p.1 ++ "." ++ Strings.itoa p.2) =
          splitConcatKey p.1 ++ [Strings.itoa p.2] := by
        rw [splitConcatKey_append hp hindex, splitConcatKey_itoa]
      have hquote : '"' ∉ (p.1 ++ "." ++ Strings.itoa p.2).toList := by
        simp [hp, hindex]
      cases rest with
      | nil =>
          refine ⟨p.1 ++ "." ++ Strings.itoa p.2, ?_, hquote, ?_⟩
          · simp [roundBody]
          · rw [List.flatMap_singleton, hhead]
      | cons q rest =>
          obtain ⟨text, htext, hno, hnames⟩ := ih (List.cons_ne_nil q rest) fun r hr =>
            h r (List.mem_cons_of_mem p hr)
          refine ⟨p.1 ++ "." ++ Strings.itoa p.2 ++ "." ++ text, ?_, ?_, ?_⟩
          · rw [← List.singleton_append, roundBody_append, htext]
            simp [roundBody, String.append_assoc]
          · rw [String.toList_append, String.toList_append, List.mem_append, List.mem_append]
            simp only [hquote, hno, or_false, false_or]
            decide
          · rw [splitConcatKey_append hquote hno, hhead, hnames]
            rfl

section Complete

variable {key : String} {n : ℕ}

-- The loop spells the place of a tuple with an empty name for an empty part.

theorem exists_round_text (hwild : wildcards key = n + 1) (hquote : '"' ∉ key.toList) {v : List ℕ}
    (hv : v.length = n + 1) :
    ∃ text, roundBody ((keyParts key).zip v) = text ++ "." ∧ '"' ∉ text.toList ∧
      splitConcatKey text = placePath splitConcatKey (keyParts key) v := by
  refine roundBody_names ?_ fun p hp => not_mem_part hquote (List.of_mem_zip hp).1
  rw [wildcards] at hwild
  refine List.ne_nil_of_length_pos ?_
  rw [List.length_zip]
  omega

theorem placeExists_eq (hwild : wildcards key = n + 1) (hquote : '"' ∉ key.toList) (t : Node)
    {v : List ℕ} (hv : v.length = n + 1) :
    t.placeExists (keyParts key) v =
      ((placePath splitConcatKey (keyParts key) v).foldlM Node.getChild t).isSome := by
  obtain ⟨text, htext, _, hnames⟩ := exists_round_text hwild hquote hv
  rw [Node.placeExists, roundKeys_snd, htext, Strings.trimSuffix_append, Node.keyExists,
    Node.getNode, hnames]

theorem splitConcatKey_roundKeys (hwild : wildcards key = n + 1) (hquote : '"' ∉ key.toList)
    {v : List ℕ} (hv : v.length = n + 1) :
    splitConcatKey (roundKeys (keyParts key) v).1 =
      placePath splitConcatKey (keyParts key) v ++ partNames ((keyParts key).getLast?.getD "") := by
  obtain ⟨text, htext, hno, hnames⟩ := exists_round_text hwild hquote hv
  have hlast := getLast_mem_keyParts key
  rw [roundKeys_fst, htext]
  generalize (keyParts key).getLast?.getD "" = last at hlast
  by_cases hempty : last = ""
  · rw [partNames, if_pos hempty, hempty, String.append_empty, Strings.trimSuffix_append, hnames,
      List.append_nil]
  · have htrim := Strings.trimSuffix_append_of_not_hasSuffix hempty (not_hasSuffix_part hlast)
      (text ++ ".")
    rw [partNames, if_neg hempty, ← hnames, ← splitConcatKey_append hno (not_mem_part hquote hlast)]
    exact congrArg splitConcatKey htrim

theorem zip_dropLast {parts : List String} {v : List ℕ} (hv : v.length = parts.length - 1) :
    parts.zip v = parts.dropLast.zip v := by
  rcases parts.eq_nil_or_concat' with rfl | ⟨front, last, rfl⟩
  · rfl
  · rw [List.length_append, List.length_singleton, Nat.add_sub_cancel] at hv
    have hzip : (front ++ [last]).zip (v ++ []) = front.zip v ++ [last].zip [] :=
      List.zip_append hv.symm
    rw [List.append_nil, List.zip_nil_right, List.append_nil] at hzip
    rw [hzip, List.dropLast_concat]

theorem placePath_congr {names names' : String → List String} {v : List ℕ}
    (hv : v.length = wildcards key) (h : ∀ p ∈ (keyParts key).dropLast, names p = names' p) :
    placePath names (keyParts key) v = placePath names' (keyParts key) v := by
  rw [placePath, placePath, zip_dropLast hv]
  refine List.flatMap_congr fun p hp => ?_
  rw [h p.1 (List.of_mem_zip hp).1]

theorem length_placePath (names : String → List String) {v : List ℕ}
    (hv : v.length = wildcards key) :
    (placePath names (keyParts key) v).length =
      ((keyParts key).dropLast.map fun p => (names p).length + 1).sum := by
  have hfst : ((keyParts key).dropLast.zip v).map Prod.fst = (keyParts key).dropLast :=
    List.map_fst_zip (by rw [List.length_dropLast, hv, wildcards])
  rw [placePath, zip_dropLast hv, List.length_flatMap]
  nth_rw 2 [← hfst]
  rw [List.map_map]
  simp only [List.length_append, List.length_singleton]
  rfl

theorem splitConcatKey_eq_partNames (part : String) (hne : part ≠ "") :
    splitConcatKey part = partNames part := by
  rw [partNames, if_neg hne]

/-- With an empty part the spelling has a name too many. -/
theorem length_elementPath_lt {v w : List ℕ} (hv : v.length = wildcards key)
    (hw : w.length = wildcards key) (hempty : "" ∈ (keyParts key).dropLast) :
    (elementPath (keyParts key) v).length <
      (placePath splitConcatKey (keyParts key) w).length := by
  have hone : (partNames "").length < (splitConcatKey "").length := by decide
  rw [elementPath, length_placePath _ hv, length_placePath _ hw]
  refine List.sum_lt_sum _ _ (fun p _ => ?_) ⟨"", hempty, Nat.succ_lt_succ hone⟩
  by_cases hp : p = ""
  · subst hp
    exact Nat.succ_le_succ hone.le
  · rw [splitConcatKey_eq_partNames p hp]

theorem countedIndices_lt_iff {n x y : ℕ} : countedIndices n x < countedIndices n y ↔ x < y := by
  induction n with
  | zero =>
      rw [countedIndices, countedIndices, List.replicate_zero, List.nil_append, List.nil_append,
        List.cons_lt_cons_iff]
      simp
  | succ n ih =>
      rw [← ih, countedIndices, countedIndices, List.replicate_succ, List.cons_append,
        List.cons_append, List.cons_lt_cons_iff]
      simp [countedIndices]

theorem length_countedIndices (n x : ℕ) : (countedIndices n x).length = n + 1 := by
  rw [countedIndices, List.length_append, List.length_replicate, List.length_singleton]

theorem quote_not_mem_checkStem (hquote : '"' ∉ key.toList) (n : ℕ) :
    '"' ∉ (checkStem (keyParts key) n).toList := by
  rw [checkStem, String.toList_append, List.mem_append, not_or]
  constructor
  · exact not_mem_roundBody (by decide) (by decide) fun p hp =>
      not_mem_part hquote (List.of_mem_zip hp).1
  · rw [List.getD_eq_getElem?_getD]
    cases hpart : (keyParts key)[n]? with
    | none => exact List.not_mem_nil
    | some part => exact not_mem_part hquote (List.mem_of_getElem? hpart)

/-- A key without quotes has text before its last wildcard that can be counted behind. -/
theorem countable_of_no_quote (hquote : '"' ∉ key.toList) (t : Node) (n : ℕ) :
    Countable t (checkStem (keyParts key) n) :=
  Or.inl (quote_not_mem_checkStem hquote n)

/-- What is returned for a key without quotes. -/
theorem generateKeyList_of_no_quote (hwild : wildcards key = n + 1) (hquote : '"' ∉ key.toList)
    (t : Node) :
    ∃ m, t.placeExists (keyParts key) (countedIndices n m) = false ∧
      (∀ x < m, t.placeExists (keyParts key) (countedIndices n x) = true) ∧
      t.generateKeyList key =
        .ok ((List.range m).map fun x => (roundKeys (keyParts key) (countedIndices n x)).1) := by
  obtain ⟨m, hmissing, hexists, hreturns⟩ :=
    expansion_of_countable hwild (countable_of_no_quote hquote t n)
  refine ⟨m, hmissing, hexists, ?_⟩
  rw [generateKeyList_eq]
  exact hreturns _ (Nat.lt_succ_self _)

/-- Without empty parts the loop asks for the elements, and its keys are their paths. -/
theorem placeExists_iff_hasElement (hwild : wildcards key = n + 1) (hquote : '"' ∉ key.toList)
    (hparts : "" ∉ (keyParts key).dropLast) (t : Node) (x : ℕ) :
    t.placeExists (keyParts key) (countedIndices n x) = true ↔
      t.HasElement key (countedIndices n x) := by
  have hlength := length_countedIndices n x
  have hpath := placePath_congr (hlength.trans hwild.symm) fun p hp =>
    splitConcatKey_eq_partNames p fun he => hparts (he ▸ hp)
  rw [placeExists_eq hwild hquote t hlength, hpath, Node.HasElement, hwild, elementPath]
  exact (and_iff_right hlength).symm

theorem splitConcatKey_roundKeys_eq (hwild : wildcards key = n + 1) (hquote : '"' ∉ key.toList)
    (hparts : "" ∉ (keyParts key).dropLast) (x : ℕ) :
    splitConcatKey (roundKeys (keyParts key) (countedIndices n x)).1 =
      tuplePath key (countedIndices n x) := by
  have hlength := length_countedIndices n x
  have hpath := placePath_congr (hlength.trans hwild.symm) fun p hp =>
    splitConcatKey_eq_partNames p fun he => hparts (he ▸ hp)
  rw [splitConcatKey_roundKeys hwild hquote hlength, hpath, tuplePath, elementPath]

/-- Without empty parts: the tuples whose element exists are to be those that are counted, and
all of them up to the last. -/
theorem expandsCompletely_iff_of_parts (hwild : wildcards key = n + 1) (hquote : '"' ∉ key.toList)
    (hparts : "" ∉ (keyParts key).dropLast) (t : Node) :
    t.ExpandsCompletely key ↔ (∀ v, t.HasElement key v → ∃ x, v = countedIndices n x) ∧
      ∀ x, t.HasElement key (countedIndices n x) →
        ∀ y < x, t.HasElement key (countedIndices n y) := by
  obtain ⟨m, hmissing, hexists, hkeys⟩ := generateKeyList_of_no_quote hwild hquote t
  have hiff := placeExists_iff_hasElement hwild hquote hparts t
  have hnone : ¬t.HasElement key (countedIndices n m) := by
    rw [← hiff, hmissing]
    exact Bool.false_ne_true
  have hnodup : ((List.range m).map (countedIndices n)).Nodup :=
    List.nodup_range.map (countedIndices_injective n)
  constructor
  · rintro ⟨keys, tuples, hreturned, hsorted, hmem, hpaths⟩
    obtain rfl := Except.ok.inj (hkeys.symm.trans hreturned)
    -- as many tuples as keys, and the counted ones are among them: there are no others
    have hsubset : (List.range m).map (countedIndices n) ⊆ tuples := by
      intro v hv
      obtain ⟨x, hx, rfl⟩ := List.mem_map.1 hv
      exact (hmem _).2 ((hiff x).1 (hexists x (List.mem_range.1 hx)))
    have hlength : tuples.length = m := by
      have h := congrArg List.length hpaths
      rw [List.length_map, List.length_map, List.length_map, List.length_range] at h
      exact h.symm
    have hperm := (hnodup.subperm hsubset).perm_of_length_le
      (by rw [List.length_map, List.length_range, hlength])
    have hcounted : ∀ v, t.HasElement key v → ∃ x < m, v = countedIndices n x := by
      intro v hv
      obtain ⟨x, hx, rfl⟩ := List.mem_map.1 (hperm.mem_iff.2 ((hmem v).2 hv))
      exact ⟨x, List.mem_range.1 hx, rfl⟩
    refine ⟨fun v hv => (hcounted v hv).imp fun _ => And.right, fun x hx y hy => ?_⟩
    obtain ⟨x', hx', heq⟩ := hcounted _ hx
    obtain rfl := countedIndices_injective n heq
    exact (hiff y).1 (hexists y (hy.trans hx'))
  · rintro ⟨hcounted, hdown⟩
    refine ⟨_, (List.range m).map (countedIndices n), hkeys, ?_, fun v => ?_, ?_⟩
    · rw [List.pairwise_map]
      exact List.pairwise_lt_range.imp fun h => countedIndices_lt_iff.2 h
    · rw [List.mem_map]
      constructor
      · rintro ⟨x, hx, rfl⟩
        exact (hiff x).1 (hexists x (List.mem_range.1 hx))
      · intro hv
        obtain ⟨x, rfl⟩ := hcounted v hv
        refine ⟨x, List.mem_range.2 (lt_of_not_ge fun hle => ?_), rfl⟩
        rcases hle.eq_or_lt with rfl | hlt
        · exact hnone hv
        · exact hnone (hdown x hv m hlt)
    · rw [List.map_map, List.map_map]
      refine List.map_congr_left fun x _ => ?_
      rw [Function.comp_apply, Function.comp_apply, splitConcatKey_roundKeys_eq hwild hquote hparts]

/-- With an empty part no key that is returned names an element: there is to be none, and none
is to be returned. -/
theorem expandsCompletely_iff_of_empty (hwild : wildcards key = n + 1) (hquote : '"' ∉ key.toList)
    (hempty : "" ∈ (keyParts key).dropLast) (t : Node) :
    t.ExpandsCompletely key ↔ (∀ v, ¬t.HasElement key v) ∧
      t.placeExists (keyParts key) (countedIndices n 0) = false := by
  obtain ⟨m, hmissing, hexists, hkeys⟩ := generateKeyList_of_no_quote hwild hquote t
  constructor
  · rintro ⟨keys, tuples, hreturned, _, hmem, hpaths⟩
    obtain rfl := Except.ok.inj (hkeys.symm.trans hreturned)
    have hnil : tuples = [] := by
      by_contra hne
      obtain ⟨v, rest, rfl⟩ := List.exists_cons_of_ne_nil hne
      have hv := ((hmem v).1 List.mem_cons_self).1
      have hmemPath := List.mem_map_of_mem (f := tuplePath key)
        (List.mem_cons_self (a := v) (l := rest))
      rw [← hpaths] at hmemPath
      obtain ⟨k, hk, hpath⟩ := List.mem_map.1 hmemPath
      obtain ⟨x, _, rfl⟩ := List.mem_map.1 hk
      have hlength := length_countedIndices n x
      have hlt := length_elementPath_lt hv (hlength.trans hwild.symm) hempty
      have hsame := congrArg List.length
        ((splitConcatKey_roundKeys hwild hquote hlength).symm.trans hpath)
      rw [tuplePath, List.length_append, List.length_append] at hsame
      omega
    subst hnil
    refine ⟨fun v hv => List.not_mem_nil ((hmem v).2 hv), ?_⟩
    have hzero : m = 0 := by
      have h := congrArg List.length hpaths
      rwa [List.length_map, List.length_map, List.length_range] at h
    exact hzero ▸ hmissing
  · rintro ⟨hnone, hfirst⟩
    have hzero : m = 0 := by
      by_contra hne
      rw [hexists 0 (Nat.pos_of_ne_zero hne)] at hfirst
      cases hfirst
    subst hzero
    exact ⟨_, [], hkeys, List.Pairwise.nil, fun v => iff_of_false List.not_mem_nil (hnone v), rfl⟩

end Complete

/-- **When key expansion is complete**, for a key without quotes: the key has a wildcard; every
element has index zero at all wildcards but the last; no index before one that exists is missing;
and a key with an empty part before a wildcard (`[].a`, `a[][]`) has no element, and none is
found under the spelling with an empty name. -/
theorem generateKeyList_complete_iff (t : Node) (key : String) (hquote : '"' ∉ key.toList) :
    t.ExpandsCompletely key ↔
      Strings.contains key "[]" = true ∧
      (∀ v, t.HasElement key v → ∃ x, v = countedIndices (wildcards key - 1) x) ∧
      (∀ x, t.HasElement key (countedIndices (wildcards key - 1) x) →
        ∀ y < x, t.HasElement key (countedIndices (wildcards key - 1) y)) ∧
      ("" ∈ (keyParts key).dropLast → (∀ v, ¬t.HasElement key v) ∧
        t.placeExists (keyParts key) (countedIndices (wildcards key - 1) 0) = false) := by
  cases hwild : wildcards key with
  | zero =>
      have hno := not_contains_brackets hwild
      refine iff_of_false ?_ fun h => hno h.1
      -- the one tuple is the empty one, and no key is returned for it
      rintro ⟨keys, tuples, hreturned, _, hmem, hpaths⟩
      rw [generateKeyList_eq, Node.expansion, if_neg hno] at hreturned
      obtain rfl := Except.ok.inj hreturned
      obtain rfl := List.map_eq_nil_iff.1 hpaths.symm
      refine List.not_mem_nil ((hmem []).2 ⟨hwild.symm, ?_⟩)
      rw [elementPath, placePath, List.zip_nil_right]
      rfl
  | succ n =>
      rw [Nat.add_sub_cancel,
        and_iff_right ((contains_brackets_iff key).2 (hwild ▸ Nat.succ_pos n))]
      by_cases hempty : "" ∈ (keyParts key).dropLast
      · rw [expandsCompletely_iff_of_empty hwild hquote hempty, forall_prop_of_true hempty]
        constructor
        · intro h
          exact ⟨fun v hv => absurd hv (h.1 v), fun x hx => absurd hx (h.1 _), h⟩
        · exact fun h => h.2.2
      · rw [expandsCompletely_iff_of_parts hwild hquote hempty, forall_prop_of_false hempty,
          and_true]

/-- A list has an element at every index below its length. -/
theorem isSome_getChild_itoa (children : List Node) (x : ℕ) :
    ((Node.slice children).getChild (Strings.itoa x)).isSome = true ↔
      x < children.length ∧ x < 2 ^ 63 := by
  by_cases hx : x < 2 ^ 63
  · rw [Node.getChild, Strings.atoi_itoa, if_pos hx, and_iff_left hx]
    simp only [Int.natCast_nonneg, not_lt_of_ge, if_false, Int.toNat_natCast, isSome_getElem?]
  · rw [Node.getChild, Strings.atoi_itoa, if_neg hx]
    exact iff_of_false Bool.false_ne_true fun h => hx h.2

theorem generateKeyList_complete_ports :
    (Node.map [("ports", .slice [.null, .null])]).ExpandsCompletely "ports[].name" := by
  have hparts : keyParts "ports[].name" = ["ports", "name"] := by decide +kernel
  have hnames : partNames "ports" = ["ports"] := by decide +kernel
  have hpath : ∀ x, elementPath (keyParts "ports[].name") [x] = ["ports", Strings.itoa x] := by
    intro x
    rw [elementPath, placePath, hparts]
    simp [hnames]
  have hhas : ∀ x, (Node.map [("ports", .slice [.null, .null])]).HasElement "ports[].name" [x] ↔
      x < 2 := by
    intro x
    have hchild : (Node.map [("ports", .slice [.null, .null])]).getChild "ports" =
        some (.slice [.null, .null]) := by
      rw [Node.getChild, List.lookup_cons_self]
    rw [Node.HasElement, hpath, List.foldlM_cons, hchild, wildcards, hparts]
    refine (and_iff_right rfl).trans ?_
    simp only [Option.bind_eq_bind, Option.bind_some, List.foldlM_cons, List.foldlM_nil, bind_pure]
    rw [isSome_getChild_itoa]
    exact and_iff_left_of_imp fun h => h.trans (by decide)
  refine (generateKeyList_complete_iff _ _ (by decide)).2 ⟨by decide +kernel, ?_, ?_, ?_⟩
  · rintro v ⟨hlength, _⟩
    rw [wildcards, hparts] at hlength
    obtain ⟨x, rfl⟩ := List.length_eq_one_iff.1 hlength
    refine ⟨x, ?_⟩
    rw [wildcards, hparts]
    rfl
  · rw [wildcards, hparts]
    exact fun x hx y hy => (hhas y).2 (hy.trans ((hhas x).1 hx))
  · exact fun h => absurd h (by rw [hparts]; decide)

/-- Two containers with an environment entry each.  `containers[].env[].value` stands for both
entries, and only that of the first container is returned. -/
theorem generateKeyList_two_containers :
    let env := Node.map [("env", .slice [.map [("value", .value (.str "a"))]])]
    let pod := Node.map [("containers", .slice [env, env])]
    let key := "containers[].env[].value"
    pod.HasElement key [0, 0] ∧ pod.HasElement key [1, 0] ∧
      pod.generateKeyList key = .ok ["containers.0.env.0.value"] ∧ ¬pod.ExpandsCompletely key := by
  intro env pod key
  have hsecond : pod.HasElement key [1, 0] := ⟨by decide +kernel, by decide +kernel⟩
  refine ⟨⟨by decide +kernel, by decide +kernel⟩, hsecond, by decide +kernel, fun h => ?_⟩
  rw [expandsCompletely_iff_of_parts (by decide +kernel : wildcards key = 1 + 1) (by decide)
    (by decide +kernel)] at h
  obtain ⟨x, hx⟩ := h.1 _ hsecond
  exact absurd (List.cons.inj hx).1 Nat.one_ne_zero

end Mapnode
end IntegrityShield
