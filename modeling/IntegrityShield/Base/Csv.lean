/-
# One record of Go's `encoding/csv`

`Reader.Read` with a given delimiter and every other option at its default:
blank lines are skipped, a quoted field may hold delimiters, line ends and
doubled quotes, and a quote anywhere else is an error.  Line ends are
normalised first (`\r\n` to `\n`, and a `\r` before the end of the input
dropped), so the fields can be read off one stream of characters.
-/

import Mathlib.Algebra.GroupWithZero.Nat
import Mathlib.Data.List.TakeWhile
import Mathlib.Tactic.Common

namespace IntegrityShield
namespace Csv

/-- `readLine`'s normalisation of line ends. -/
def normalize : List Char → List Char
  | [] => []
  | ['\r'] => []
  | '\r' :: '\n' :: t => '\n' :: normalize t
  | c :: t => c :: normalize t

/-- The rest of a quoted field: its text and what follows the closing quote. -/
def quotedField : List Char → Option (List Char × List Char)
  | [] => none
  | '"' :: '"' :: t => (quotedField t).map fun r => ('"' :: r.1, r.2)
  | '"' :: t => some ([], t)
  | c :: t => (quotedField t).map fun r => (c :: r.1, r.2)

/-- The fields of the record that starts here. -/
def fields (comma : Char) : ℕ → List Char → Option (List (List Char))
  | 0, _ => none
  | fuel + 1, '"' :: t =>
      match quotedField t with
      | none => none
      | some (field, []) => some [field]
      | some (field, c :: rest) =>
          if c = comma then (fields comma fuel rest).map (field :: ·)
          else if c = '\n' then some [field]
          else none
  | fuel + 1, t =>
      let field := t.takeWhile fun c => c != comma && c != '\n'
      if '"' ∈ field then none
      else match t.drop field.length with
        | c :: rest => if c = comma then (fields comma fuel rest).map (field :: ·) else some [field]
        | [] => some [field]

/-- The first record of the input, `none` where `Read` returns an error. -/
def read (comma : Char) (s : String) : Option (List String) :=
  match (normalize s.toList).dropWhile (· == '\n') with
  | [] => none
  | t => (fields comma (t.length + 1) t).map fun fs => fs.map String.ofList

/-! ## A last field that needs no quotes

What the reader makes of an input that ends in a plain field does not depend on that
field: it rejects the input, or reads the field as the last one of the record, or the
record has ended before. -/

/-- A text that is a field as it stands. -/
def PlainField (comma : Char) (field : List Char) : Prop :=
  ∀ c ∈ field, c ≠ comma ∧ c ≠ '\n' ∧ c ≠ '\r' ∧ c ≠ '"'

/-- What becomes of the plain fields at the end of some inputs: all of the inputs are
rejected, or the field is the last one of the record, or the record is without it.  The
reader is given as many steps as it needs. -/
inductive Ending (comma : Char) (steps : ℕ) (read : ℕ → List Char → Option (List (List Char))) :
    Prop where
  | rejected : (∀ fuel field, steps < fuel → PlainField comma field → read fuel field = none) →
      Ending comma steps read
  | inside (before : List (List Char)) :
      (∀ fuel field, steps < fuel → PlainField comma field →
        read fuel field = some (before ++ [field])) → Ending comma steps read
  | outside (record : List (List Char)) :
      (∀ fuel field, steps < fuel → PlainField comma field → read fuel field = some record) →
      Ending comma steps read

variable {comma : Char}

theorem PlainField.quote_not_mem {field : List Char} (h : PlainField comma field) : '"' ∉ field :=
  fun hc => (h _ hc).2.2.2 rfl

/-- A character that is no carriage return, or is not before a line feed or the end, is
kept. -/
theorem normalize_cons {c : Char} {rest : List Char}
    (h : c = '\r' → rest ≠ [] ∧ rest.head? ≠ some '\n') :
    normalize (c :: rest) = c :: normalize rest := by
  rw [normalize]
  · exact fun hc hrest => (h hc).1 hrest
  · rintro t hc rfl
    exact (h hc).2 rfl

theorem normalize_of_not_mem {l : List Char} (h : '\r' ∉ l) : normalize l = l := by
  induction l with
  | nil => rfl
  | cons c rest ih =>
      obtain ⟨hc, hrest⟩ := not_or.1 (mt List.mem_cons.2 h)
      rw [normalize_cons fun hr => absurd hr.symm hc, ih hrest]

theorem PlainField.normalize_eq {field : List Char} (h : PlainField comma field) :
    normalize field = field :=
  normalize_of_not_mem fun hc => (h _ hc).2.2.1 rfl

/-- Line ends are normalised before the last field as if it were not there. -/
theorem exists_normalize_append (hcomma : comma ≠ '\n' ∧ comma ≠ '\r') (l : List Char) :
    ∃ l', ∀ field, PlainField comma field →
      normalize (l ++ comma :: field) = l' ++ comma :: field := by
  have hkeep : ∀ c rest rest', (c = '\r' → rest.head? ≠ some '\n') →
      (∀ field, PlainField comma field →
        normalize (rest ++ comma :: field) = rest' ++ comma :: field) →
      ∀ field, PlainField comma field →
        normalize (c :: rest ++ comma :: field) = c :: rest' ++ comma :: field := by
    intro c rest rest' hc hrest field hfield
    rw [List.cons_append, normalize_cons, hrest field hfield, List.cons_append]
    intro hr
    cases rest with
    | nil => exact ⟨List.cons_ne_nil _ _, fun hhead => hcomma.1 (Option.some.inj hhead)⟩
    | cons d rest => exact ⟨List.cons_ne_nil _ _, hc hr⟩
  have hnil : ∀ field, PlainField comma field →
      normalize ([] ++ comma :: field) = [] ++ comma :: field := by
    intro field hfield
    rw [List.nil_append, normalize_cons fun hr => absurd hr hcomma.2, hfield.normalize_eq]
  induction l using normalize.induct with
  | case1 => exact ⟨[], hnil⟩
  | case2 => exact ⟨['\r'], hkeep '\r' [] [] (fun _ => by simp) hnil⟩
  | case3 t ih =>
      obtain ⟨t', ht'⟩ := ih
      refine ⟨'\n' :: t', fun field hfield => ?_⟩
      rw [List.cons_append, List.cons_append, normalize, ht' field hfield, List.cons_append]
  | case4 c t hend hline ih =>
      obtain ⟨t', ht'⟩ := ih
      refine ⟨c :: t', hkeep c t t' (fun hr hhead => ?_) ht'⟩
      obtain ⟨rest, rfl⟩ := List.head?_eq_some_iff.1 hhead
      exact hline rest hr rfl

theorem quotedField_cons {c : Char} (hc : c ≠ '"') (rest : List Char) :
    quotedField (c :: rest) = (quotedField rest).map fun r => (c :: r.1, r.2) := by
  rw [quotedField]
  · exact fun t h _ => hc h
  · exact hc

theorem quotedField_close {rest : List Char} (h : rest.head? ≠ some '"') :
    quotedField ('"' :: rest) = some ([], rest) := by
  rw [quotedField]
  rintro t rfl
  exact h rfl

/-- A quoted field is closed before the last field, or not at all. -/
theorem quotedField_append {tail : List Char} (htail : '"' ∉ tail) (l : List Char) :
    quotedField (l ++ tail) = (quotedField l).map fun r => (r.1, r.2 ++ tail) := by
  have hhead : ∀ t : List Char, t.head? ≠ some '"' → (t ++ tail).head? ≠ some '"' := by
    intro t ht
    cases t with
    | nil => exact fun h => htail (List.mem_of_head? h)
    | cons d rest => exact ht
  induction l using quotedField.induct with
  | case1 =>
      change quotedField tail = none
      clear hhead
      induction tail with
      | nil => rfl
      | cons c rest ih =>
          obtain ⟨hc, hrest⟩ := not_or.1 (mt List.mem_cons.2 htail)
          rw [quotedField_cons (Ne.symm hc), ih hrest]
          rfl
  | case2 t ih =>
      rw [List.cons_append, List.cons_append, quotedField, quotedField, ih, Option.map_map,
        Option.map_map]
      rfl
  | case3 t hescape =>
      have ht : t.head? ≠ some '"' := by
        intro h
        obtain ⟨rest, rfl⟩ := List.head?_eq_some_iff.1 h
        exact hescape rest rfl
      rw [List.cons_append, quotedField_close ht, quotedField_close (hhead t ht)]
      rfl
  | case4 c t _ hquote ih =>
      rw [List.cons_append, quotedField_cons hquote, quotedField_cons hquote, ih, Option.map_map,
        Option.map_map]
      rfl

theorem length_quotedField {l : List Char} {r : List Char × List Char}
    (h : quotedField l = some r) : r.2.length < l.length := by
  induction l using quotedField.induct generalizing r with
  | case1 => cases h
  | case2 t ih =>
      rw [quotedField, Option.map_eq_some_iff] at h
      obtain ⟨r', hr', rfl⟩ := h
      exact (ih hr').trans_le (by simp only [List.length_cons]; omega)
  | case3 t hescape =>
      rw [quotedField] at h
      · obtain rfl := Option.some.inj h
        exact Nat.lt_succ_self _
      · exact hescape
  | case4 c t _ hquote ih =>
      rw [quotedField_cons hquote, Option.map_eq_some_iff] at h
      obtain ⟨r', hr', rfl⟩ := h
      exact (ih hr').trans (Nat.lt_succ_self _)

/-- The first field of a record that does not begin with a quote. -/
def bareField (comma : Char) (l : List Char) : List Char :=
  l.takeWhile fun c => c != comma && c != '\n'

theorem fields_bare {l : List Char} (h : l.head? ≠ some '"') (fuel : ℕ) :
    fields comma (fuel + 1) l =
      if '"' ∈ bareField comma l then none
      else match l.drop (bareField comma l).length with
        | c :: rest => if c = comma then (fields comma fuel rest).map (bareField comma l :: ·)
            else some [bareField comma l]
        | [] => some [bareField comma l] := by
  rw [fields]
  · rfl
  · rintro t rfl
    exact h rfl

theorem PlainField.bareField_eq {field : List Char} (h : PlainField comma field) :
    bareField comma field = field :=
  List.takeWhile_eq_self_iff.2 fun c hc => by simp [(h c hc).1, (h c hc).2.1]

/-- A plain field at the end of the input. -/
theorem fields_plain {field : List Char} (h : PlainField comma field) (fuel : ℕ) :
    fields comma (fuel + 1) field = some [field] := by
  have hhead : field.head? ≠ some '"' := fun hq => h.quote_not_mem (List.mem_of_head? hq)
  rw [fields_bare hhead, h.bareField_eq, if_neg h.quote_not_mem, List.drop_length]

/-- A field before what the reader goes on with. -/
theorem Ending.cons {steps steps' : ℕ} {read : ℕ → List Char → Option (List (List Char))}
    (h : Ending comma steps' read) (hsteps : steps' < steps) (first : List Char) :
    Ending comma steps fun fuel field => (read (fuel - 1) field).map (first :: ·) := by
  cases h with
  | rejected h =>
      refine .rejected fun fuel field hfuel hfield => ?_
      rw [h (fuel - 1) field (by omega) hfield]
      rfl
  | inside before h =>
      refine .inside (first :: before) fun fuel field hfuel hfield => ?_
      rw [h (fuel - 1) field (by omega) hfield]
      rfl
  | outside record h =>
      refine .outside (first :: record) fun fuel field hfuel hfield => ?_
      rw [h (fuel - 1) field (by omega) hfield]
      rfl

theorem Ending.congr {steps : ℕ} {read read' : ℕ → List Char → Option (List (List Char))}
    (h : Ending comma steps read) (heq : ∀ fuel field, steps < fuel → PlainField comma field →
      read' fuel field = read fuel field) : Ending comma steps read' := by
  cases h with
  | rejected h => exact .rejected fun fuel field hf hp => (heq fuel field hf hp).trans (h _ _ hf hp)
  | inside before h =>
      exact .inside before fun fuel field hf hp => (heq fuel field hf hp).trans (h _ _ hf hp)
  | outside record h =>
      exact .outside record fun fuel field hf hp => (heq fuel field hf hp).trans (h _ _ hf hp)

theorem fields_quoted (t : List Char) (fuel : ℕ) :
    fields comma (fuel + 1) ('"' :: t) =
      match quotedField t with
      | none => none
      | some (field, []) => some [field]
      | some (field, c :: rest) =>
          if c = comma then (fields comma fuel rest).map (field :: ·)
          else if c = '\n' then some [field]
          else none := by
  rw [fields]

/-- An input that begins with a quoted field. -/
theorem Ending.quoted (hcomma : comma ≠ '"') {t : List Char}
    (hrest : ∀ r : List Char, r.length ≤ t.length →
      Ending comma (r.length + 1) fun fuel field => fields comma fuel (r ++ comma :: field)) :
    Ending comma (t.length + 2) fun fuel field =>
      fields comma fuel ('"' :: t ++ comma :: field) := by
  have hstep : ∀ fuel field, t.length + 2 < fuel → PlainField comma field →
      fields comma fuel ('"' :: t ++ comma :: field) =
        match quotedField t with
        | none => none
        | some (first, []) => some [first, field]
        | some (first, c :: rest) =>
            if c = comma then (fields comma (fuel - 1) (rest ++ comma :: field)).map (first :: ·)
            else if c = '\n' then some [first]
            else none := by
    intro fuel field hfuel hfield
    obtain ⟨fuel, rfl⟩ := Nat.exists_eq_add_of_lt (Nat.zero_lt_of_lt hfuel)
    have htail : '"' ∉ comma :: field := by
      rw [List.mem_cons, not_or]
      exact ⟨Ne.symm hcomma, hfield.quote_not_mem⟩
    rw [Nat.zero_add, List.cons_append, fields_quoted, quotedField_append htail]
    cases quotedField t with
    | none => rfl
    | some r =>
        obtain ⟨first, rest⟩ := r
        cases rest with
        | nil =>
            obtain ⟨fuel, rfl⟩ := Nat.exists_eq_add_of_lt (show 0 < fuel by omega)
            simp [fields_plain hfield]
        | cons c rest => rfl
  cases hquoted : quotedField t with
  | none =>
      refine .rejected fun fuel field hfuel hfield => ?_
      rw [hstep fuel field hfuel hfield, hquoted]
  | some r =>
      obtain ⟨first, rest⟩ := r
      have hlength := length_quotedField hquoted
      cases rest with
      | nil =>
          refine .inside [first] fun fuel field hfuel hfield => ?_
          rw [hstep fuel field hfuel hfield, hquoted]
          rfl
      | cons c rest =>
          rw [List.length_cons] at hlength
          by_cases hc : c = comma
          · refine ((hrest rest (by omega)).cons (by omega) first).congr
              fun fuel field hfuel hfield => ?_
            rw [hstep fuel field hfuel hfield, hquoted]
            exact if_pos hc
          · by_cases hn : c = '\n'
            · refine .outside [first] fun fuel field hfuel hfield => ?_
              rw [hstep fuel field hfuel hfield, hquoted]
              exact (if_neg hc).trans (if_pos hn)
            · refine .rejected fun fuel field hfuel hfield => ?_
              rw [hstep fuel field hfuel hfield, hquoted]
              exact (if_neg hc).trans (if_neg hn)

/-- An input that begins with another field. -/
theorem Ending.bare (hcomma : comma ≠ '"') {l : List Char} (hl : l.head? ≠ some '"')
    (hrest : ∀ r : List Char, r.length < l.length →
      Ending comma (r.length + 1) fun fuel field => fields comma fuel (r ++ comma :: field)) :
    Ending comma (l.length + 1) fun fuel field => fields comma fuel (l ++ comma :: field) := by
  have hhead : ∀ field, (l ++ comma :: field).head? ≠ some '"' := by
    intro field
    cases l with
    | nil => exact fun h => hcomma (Option.some.inj h)
    | cons c rest => exact hl
  have hstep : ∀ fuel field first c rest, l.length + 1 < fuel →
      bareField comma (l ++ comma :: field) = first → l ++ comma :: field = first ++ c :: rest →
      fields comma fuel (l ++ comma :: field) =
        if '"' ∈ first then none
        else if c = comma then (fields comma (fuel - 1) rest).map (first :: ·)
        else some [first] := by
    intro fuel field first c rest hfuel hfirst hsplit
    obtain ⟨fuel, rfl⟩ := Nat.exists_eq_add_of_lt (Nat.zero_lt_of_lt hfuel)
    rw [Nat.zero_add, fields_bare (hhead field), hfirst, hsplit, List.drop_left]
    rfl
  -- the first field of `l` ends at a comma, at the end of a line, or with `l`
  have hsplit : bareField comma l ++ l.dropWhile (fun c => c != comma && c != '\n') = l :=
    List.takeWhile_append_dropWhile
  cases hdrop : l.dropWhile fun c => c != comma && c != '\n' with
  | nil =>
      have hall : ∀ c ∈ l, (c != comma && c != '\n') = true := List.dropWhile_eq_nil_iff.1 hdrop
      have hfirst : ∀ field, bareField comma (l ++ comma :: field) = l := by
        intro field
        rw [bareField, List.takeWhile_append_of_pos hall, List.takeWhile_cons]
        simp
      by_cases hq : '"' ∈ l
      · refine .rejected fun fuel field hfuel hfield => ?_
        rw [hstep fuel field l comma field hfuel (hfirst field) rfl, if_pos hq]
      · refine .inside [l] fun fuel field hfuel hfield => ?_
        obtain ⟨fuel, rfl⟩ := Nat.exists_eq_add_of_lt (show 1 < fuel by omega)
        rw [hstep _ field l comma field hfuel (hfirst field) rfl, if_neg hq, if_pos rfl,
          Nat.add_sub_cancel, Nat.add_comm 1, fields_plain hfield]
        rfl
  | cons c rest =>
      rw [hdrop] at hsplit
      have hfirst : ∀ field, bareField comma (l ++ comma :: field) = bareField comma l := by
        intro field
        rw [bareField, List.takeWhile_append, if_neg]
        · rfl
        · have hlt := congrArg List.length hsplit
          rw [List.length_append, List.length_cons] at hlt
          change (bareField comma l).length ≠ l.length
          omega
      have hwhole : ∀ field, l ++ comma :: field =
          bareField comma l ++ c :: (rest ++ comma :: field) := by
        intro field
        conv_lhs => rw [← hsplit]
        simp
      have hlength : rest.length < l.length := by
        have hlt := congrArg List.length hsplit
        rw [List.length_append, List.length_cons] at hlt
        omega
      by_cases hq : '"' ∈ bareField comma l
      · refine .rejected fun fuel field hfuel hfield => ?_
        rw [hstep fuel field _ c _ hfuel (hfirst field) (hwhole field), if_pos hq]
      · by_cases hcc : c = comma
        · refine ((hrest rest hlength).cons (by omega) (bareField comma l)).congr
            fun fuel field hfuel hfield => ?_
          rw [hstep fuel field _ c _ hfuel (hfirst field) (hwhole field), if_neg hq, if_pos hcc]
        · refine .outside [bareField comma l] fun fuel field hfuel hfield => ?_
          rw [hstep fuel field _ c _ hfuel (hfirst field) (hwhole field), if_neg hq, if_neg hcc]

/-- The fields of an input with a plain last field, by what comes before: the induction
follows the reader from field to field. -/
theorem ending_fields (hcomma : comma ≠ '"') (l : List Char) :
    Ending comma (l.length + 1) fun fuel field => fields comma fuel (l ++ comma :: field) := by
  induction hlen : l.length using Nat.strong_induction_on generalizing l with
  | _ n ih =>
  subst hlen
  by_cases hquoted : l.head? = some '"'
  · obtain ⟨t, rfl⟩ := List.head?_eq_some_iff.1 hquoted
    exact .quoted hcomma fun r hr => ih r.length (Nat.lt_succ_of_le hr) r rfl
  · exact .bare hcomma hquoted fun r hr => ih r.length hr r rfl

theorem read_of_cons {s : String} {c : Char} {t : List Char}
    (h : (normalize s.toList).dropWhile (· == '\n') = c :: t) :
    read comma s = (fields comma (t.length + 2) (c :: t)).map fun fs => fs.map String.ofList := by
  rw [read, h]
  rfl

/-- **Reading an input with a plain last field**: it is rejected, or the field is the last one
of the record, or the record has ended before, whatever the field is. -/
theorem read_append (hcomma : comma ≠ '\n' ∧ comma ≠ '\r' ∧ comma ≠ '"') (s : String) :
    (∀ field : String, PlainField comma field.toList →
      read comma (s ++ String.ofList [comma] ++ field) = none) ∨
    (∃ before, ∀ field : String, PlainField comma field.toList →
      read comma (s ++ String.ofList [comma] ++ field) = some (before ++ [field])) ∨
    (∃ record, ∀ field : String, PlainField comma field.toList →
      read comma (s ++ String.ofList [comma] ++ field) = some record) := by
  obtain ⟨l, hl⟩ := exists_normalize_append ⟨hcomma.1, hcomma.2.1⟩ s.toList
  set l' := l.dropWhile (· == '\n') with hl'
  have hread : ∀ field : String, PlainField comma field.toList → ∃ fuel, l'.length + 1 < fuel ∧
      read comma (s ++ String.ofList [comma] ++ field) =
        (fields comma fuel (l' ++ comma :: field.toList)).map fun fs => fs.map String.ofList := by
    intro field hfield
    have hdrop : (normalize (s ++ String.ofList [comma] ++ field).toList).dropWhile (· == '\n') =
        l' ++ comma :: field.toList := by
      have htext : (s ++ String.ofList [comma] ++ field).toList =
          s.toList ++ comma :: field.toList := by
        simp
      rw [htext, hl field.toList hfield, List.dropWhile_append]
      split
      · rename_i hempty
        rw [List.isEmpty_iff] at hempty
        rw [hl', hempty, List.dropWhile_cons_of_neg (by simpa using hcomma.1), List.nil_append]
      · rfl
    have hne : l' ++ comma :: field.toList ≠ [] := by simp
    obtain ⟨c, t, hct⟩ := List.exists_cons_of_ne_nil hne
    have hlength := congrArg List.length hct
    rw [List.length_append, List.length_cons, List.length_cons] at hlength
    rw [hct] at hdrop
    exact ⟨t.length + 2, by omega, by rw [read_of_cons hdrop, hct]⟩
  rcases ending_fields hcomma.2.2 l' with h | ⟨before, h⟩ | ⟨record, h⟩
  · left
    intro field hfield
    obtain ⟨fuel, hfuel, heq⟩ := hread field hfield
    rw [heq, h fuel _ hfuel hfield]
    rfl
  · refine .inr (.inl ⟨before.map String.ofList, fun field hfield => ?_⟩)
    obtain ⟨fuel, hfuel, heq⟩ := hread field hfield
    rw [heq, h fuel _ hfuel hfield]
    simp
  · refine .inr (.inr ⟨record.map String.ofList, fun field hfield => ?_⟩)
    obtain ⟨fuel, hfuel, heq⟩ := hread field hfield
    rw [heq, h fuel _ hfuel hfield]
    rfl

/-! ## The characters of the fields -/

theorem mem_of_mem_normalize {l : List Char} {c : Char} (h : c ∈ normalize l) : c ∈ l := by
  induction l using normalize.induct with
  | case1 => exact h
  | case2 => exact absurd h List.not_mem_nil
  | case3 t ih =>
      rw [normalize] at h
      rcases List.mem_cons.1 h with rfl | h
      · exact List.mem_cons_of_mem _ List.mem_cons_self
      · exact List.mem_cons_of_mem _ (List.mem_cons_of_mem _ (ih h))
  | case4 d t hlast hline ih =>
      rw [normalize] at h
      · rcases List.mem_cons.1 h with rfl | h
        · exact List.mem_cons_self
        · exact List.mem_cons_of_mem _ (ih h)
      · exact hlast
      · exact hline

theorem mem_of_mem_quotedField {l : List Char} {r : List Char × List Char}
    (h : quotedField l = some r) {c : Char} (hc : c ∈ r.1 ∨ c ∈ r.2) : c ∈ l := by
  induction l using quotedField.induct generalizing r with
  | case1 => cases h
  | case2 t ih =>
      rw [quotedField, Option.map_eq_some_iff] at h
      obtain ⟨r', hr', rfl⟩ := h
      rw [List.mem_cons, or_assoc] at hc
      rcases hc with rfl | hc
      · exact List.mem_cons_self
      · exact List.mem_cons_of_mem _ (List.mem_cons_of_mem _ (ih hr' hc))
  | case3 t hescape =>
      rw [quotedField] at h
      · obtain rfl := Option.some.inj h
        rw [or_iff_right List.not_mem_nil] at hc
        exact List.mem_cons_of_mem _ hc
      · exact hescape
  | case4 d t _ hquote ih =>
      rw [quotedField_cons hquote, Option.map_eq_some_iff] at h
      obtain ⟨r', hr', rfl⟩ := h
      rw [List.mem_cons, or_assoc] at hc
      rcases hc with rfl | hc
      · exact List.mem_cons_self
      · exact List.mem_cons_of_mem _ (ih hr' hc)

theorem mem_of_mem_fields {fuel : ℕ} {l : List Char} {record : List (List Char)}
    (h : fields comma fuel l = some record) : ∀ field ∈ record, ∀ c ∈ field, c ∈ l := by
  induction fuel generalizing l record with
  | zero => cases h
  | succ fuel ih =>
      -- a record is one field, or a field and the rest of the record
      have hmore : ∀ {field rest}, (∀ c ∈ field, c ∈ l) → (∀ c ∈ rest, c ∈ l) →
          (fields comma fuel rest).map (field :: ·) = some record →
          ∀ f ∈ record, ∀ c ∈ f, c ∈ l := by
        intro field rest hfield hrest hrecord
        obtain ⟨record', hrecord', rfl⟩ := Option.map_eq_some_iff.1 hrecord
        refine List.forall_mem_cons.2 ⟨hfield, fun f hf c hc => hrest c (ih hrecord' f hf c hc)⟩
      have hone : ∀ {field}, (∀ c ∈ field, c ∈ l) → some [field] = some record →
          ∀ f ∈ record, ∀ c ∈ f, c ∈ l := by
        intro field hfield hrecord
        obtain rfl := Option.some.inj hrecord
        exact List.forall_mem_singleton.2 hfield
      by_cases hquote : l.head? = some '"'
      · obtain ⟨t, rfl⟩ := List.head?_eq_some_iff.1 hquote
        rw [fields_quoted] at h
        cases hq : quotedField t with
        | none => rw [hq] at h; cases h
        | some r =>
            have hmem : ∀ c, c ∈ r.1 ∨ c ∈ r.2 → c ∈ '"' :: t := fun c hc =>
              List.mem_cons_of_mem _ (mem_of_mem_quotedField hq hc)
            obtain ⟨field, rest⟩ := r
            rw [hq] at h
            cases rest with
            | nil => exact hone (fun c hc => hmem c (Or.inl hc)) h
            | cons d rest =>
                simp only at h
                split_ifs at h
                · exact hmore (fun c hc => hmem c (Or.inl hc))
                    (fun c hc => hmem c (Or.inr (List.mem_cons_of_mem d hc))) h
                · exact hone (fun c hc => hmem c (Or.inl hc)) h
      · have hfield : ∀ c ∈ bareField comma l, c ∈ l := fun c hc =>
          (List.takeWhile_prefix _).subset hc
        rw [fields_bare hquote] at h
        split_ifs at h
        split at h
        · rename_i d rest hdrop
          have hrest : ∀ c ∈ rest, c ∈ l := fun c hc =>
            List.mem_of_mem_drop (hdrop ▸ List.mem_cons_of_mem d hc)
          split_ifs at h
          · exact hmore hfield hrest h
          · exact hone hfield h
        · exact hone hfield h

/-- The fields of a record are made of characters of the input. -/
theorem mem_of_mem_read {s : String} {record : List String} (h : read comma s = some record) :
    ∀ field ∈ record, ∀ c ∈ field.toList, c ∈ s.toList := by
  rw [read] at h
  split at h
  · cases h
  · obtain ⟨fs, hfs, rfl⟩ := Option.map_eq_some_iff.1 h
    intro field hfield c hc
    obtain ⟨f, hf, rfl⟩ := List.mem_map.1 hfield
    rw [String.toList_ofList] at hc
    exact mem_of_mem_normalize ((List.dropWhile_suffix _).subset (mem_of_mem_fields hfs f hf c hc))

/-! ## Quotes

A quoted field loses the quotes around it and one of each doubled pair, and a field that is not
quoted has none: a record has fewer quotes than the input, unless it has none at all. -/

theorem count_normalize_le (l : List Char) : (normalize l).count '"' ≤ l.count '"' := by
  induction l using normalize.induct with
  | case1 => exact Nat.le_refl _
  | case2 => exact Nat.zero_le _
  | case3 t ih =>
      rw [normalize, List.count_cons_of_ne (by decide), List.count_cons_of_ne (by decide),
        List.count_cons_of_ne (by decide)]
      exact ih
  | case4 c t hend hline ih =>
      rw [normalize, List.count_cons, List.count_cons]
      · exact Nat.add_le_add_right ih _
      · exact hend
      · exact hline

theorem count_quotedField {l field rest : List Char} (h : quotedField l = some (field, rest)) :
    field.count '"' + rest.count '"' < l.count '"' := by
  induction l using quotedField.induct generalizing field with
  | case1 => cases h
  | case2 t ih =>
      rw [quotedField, Option.map_eq_some_iff] at h
      obtain ⟨r, hr, heq⟩ := h
      obtain ⟨rfl, rfl⟩ := Prod.mk.inj heq
      have hcount : r.1.count '"' + r.2.count '"' < t.count '"' := ih hr
      rw [List.count_cons_self, List.count_cons_self, List.count_cons_self]
      omega
  | case3 t hescape =>
      rw [quotedField] at h
      · obtain ⟨rfl, rfl⟩ := Prod.mk.inj (Option.some.inj h)
        rw [List.count_nil, List.count_cons_self]
        omega
      · exact hescape
  | case4 c t _ hquote ih =>
      rw [quotedField_cons hquote, Option.map_eq_some_iff] at h
      obtain ⟨r, hr, heq⟩ := h
      obtain ⟨rfl, rfl⟩ := Prod.mk.inj heq
      rw [List.count_cons_of_ne hquote, List.count_cons_of_ne hquote]
      exact ih hr

theorem count_fields {fuel : ℕ} {l : List Char} {record : List (List Char)}
    (h : fields comma fuel l = some record) :
    (record.map (List.count '"')).sum = 0 ∨ (record.map (List.count '"')).sum < l.count '"' := by
  induction fuel generalizing l record with
  | zero => cases h
  | succ fuel ih =>
      by_cases hquoted : l.head? = some '"'
      · obtain ⟨t, rfl⟩ := List.head?_eq_some_iff.1 hquoted
        right
        rw [fields_quoted] at h
        rw [List.count_cons_self]
        cases hfield : quotedField t with
        | none =>
            rw [hfield] at h
            cases h
        | some r =>
            obtain ⟨field, rest⟩ := r
            have hcount := count_quotedField hfield
            rw [hfield] at h
            have hone : ∀ record', some [field] = some record' →
                (record'.map (List.count '"')).sum < t.count '"' + 1 := by
              rintro record' heq
              rw [← Option.some.inj heq, List.map_singleton, List.sum_singleton]
              omega
            cases rest with
            | nil => exact hone record h
            | cons c rest =>
                simp only at h
                split_ifs at h
                · obtain ⟨record', hrecord', rfl⟩ := Option.map_eq_some_iff.1 h
                  have hrest := ih hrecord'
                  have hle : rest.count '"' ≤ (c :: rest).count '"' := List.count_le_count_cons
                  rw [List.map_cons, List.sum_cons]
                  omega
                · exact hone record h
      · have hbare : ∀ record', '"' ∉ bareField comma l → some [bareField comma l] = some record' →
            (record'.map (List.count '"')).sum = 0 := by
          intro record' hno heq
          rw [← Option.some.inj heq, List.map_singleton, List.sum_singleton,
            List.count_eq_zero_of_not_mem hno]
        rw [fields_bare hquoted] at h
        split_ifs at h with hno
        split at h
        · rename_i c rest hdrop
          split_ifs at h
          · obtain ⟨record', hrecord', rfl⟩ := Option.map_eq_some_iff.1 h
            have hsuffix : c :: rest <:+ l := hdrop ▸ List.drop_suffix _ _
            have hle := hsuffix.sublist.count_le '"'
            have hle' : rest.count '"' ≤ (c :: rest).count '"' := List.count_le_count_cons
            have hrest := ih hrecord'
            rw [List.map_cons, List.sum_cons, List.count_eq_zero_of_not_mem hno]
            omega
          · exact Or.inl (hbare record hno h)
        · exact Or.inl (hbare record hno h)

/-- **A record has fewer quotes than its input**, if the input has any. -/
theorem count_read {s : String} {record : List String} (h : read comma s = some record)
    (hquote : '"' ∈ s.toList) :
    (record.map fun f => f.toList.count '"').sum < s.toList.count '"' := by
  have hpos := List.count_pos_iff.2 hquote
  have hle := count_normalize_le s.toList
  have hdrop := (List.dropWhile_sublist (l := normalize s.toList) (· == '\n')).count_le '"'
  unfold read at h
  split at h
  · cases h
  · obtain ⟨fs, hfs, rfl⟩ := Option.map_eq_some_iff.1 h
    have hcount := count_fields hfs
    have hsum : (fs.map String.ofList).map (fun f => f.toList.count '"') =
        fs.map (List.count '"') := by
      rw [List.map_map]
      exact List.map_congr_left fun f _ => congrArg (List.count '"') String.toList_ofList
    rw [hsum]
    omega

/-! ## A last field in quotes -/

theorem quotedField_closed {field : List Char} (h : '"' ∉ field) :
    quotedField (field ++ ['"']) = some (field, []) := by
  induction field with
  | nil => rfl
  | cons c rest ih =>
      obtain ⟨hc, hrest⟩ := not_or.1 (mt List.mem_cons.2 h)
      rw [List.cons_append, quotedField_cons (Ne.symm hc), ih hrest]
      rfl

/-- The text of a record: plain fields, and a last one in quotes. -/
def quotedRecord (comma : Char) (before : List (List Char)) (field : List Char) : List Char :=
  [comma].intercalate (before ++ ['"' :: field ++ ['"']])

theorem quotedRecord_nil (field : List Char) :
    quotedRecord comma [] field = '"' :: field ++ ['"'] := by
  rw [quotedRecord, List.nil_append, List.intercalate_singleton]

theorem quotedRecord_cons (first : List Char) (before : List (List Char)) (field : List Char) :
    quotedRecord comma (first :: before) field =
      first ++ comma :: quotedRecord comma before field := by
  rw [quotedRecord, List.cons_append, List.intercalate_cons_of_ne_nil (by simp), ← quotedRecord,
    List.append_assoc, List.singleton_append]

theorem fields_quotedRecord (hcomma : comma ≠ '\n' ∧ comma ≠ '"') {before : List (List Char)}
    (hbefore : ∀ f ∈ before, PlainField comma f) {field : List Char} (hfield : '"' ∉ field)
    {fuel : ℕ} (hfuel : before.length < fuel) :
    fields comma fuel (quotedRecord comma before field) = some (before ++ [field]) := by
  induction before generalizing fuel with
  | nil =>
      obtain ⟨fuel, rfl⟩ := Nat.exists_eq_add_of_lt hfuel
      rw [quotedRecord_nil, List.cons_append, fields_quoted, quotedField_closed hfield]
      rfl
  | cons first rest ih =>
      obtain ⟨fuel, rfl⟩ := Nat.exists_eq_add_of_lt (Nat.zero_lt_of_lt hfuel)
      rw [List.length_cons] at hfuel
      obtain ⟨hfirst, hrest⟩ := List.forall_mem_cons.1 hbefore
      have hhead : (quotedRecord comma (first :: rest) field).head? ≠ some '"' := by
        rw [quotedRecord_cons]
        cases first with
        | nil => exact fun h => hcomma.2 (Option.some.inj h)
        | cons c cs =>
            exact fun h => (hfirst c List.mem_cons_self).2.2.2 (Option.some.inj h)
      have hbare : bareField comma (quotedRecord comma (first :: rest) field) = first := by
        rw [quotedRecord_cons, bareField, List.takeWhile_append_of_pos, List.takeWhile_cons]
        · simp
        · exact fun c hc => by simp [(hfirst c hc).1, (hfirst c hc).2.1]
      rw [Nat.zero_add, fields_bare hhead, hbare, if_neg hfirst.quote_not_mem, quotedRecord_cons,
        List.drop_left]
      simp only [if_true, ih hrest (show rest.length < fuel by omega), Option.map_some,
        List.cons_append]

/-- **Reading plain fields and a last one in quotes.** -/
theorem read_quotedRecord (hcomma : comma ≠ '\n' ∧ comma ≠ '\r' ∧ comma ≠ '"')
    {before : List (List Char)} (hbefore : ∀ f ∈ before, PlainField comma f) {field : List Char}
    (hquote : '"' ∉ field) (hreturn : '\r' ∉ field) {s : String}
    (hs : s.toList = quotedRecord comma before field) :
    read comma s = some ((before ++ [field]).map String.ofList) := by
  have hnormal : normalize s.toList = s.toList := by
    refine normalize_of_not_mem ?_
    rw [hs]
    clear hs
    induction before with
    | nil =>
        rw [quotedRecord_nil]
        simp [hreturn]
    | cons first rest ih =>
        obtain ⟨hfirst, hrest⟩ := List.forall_mem_cons.1 hbefore
        rw [quotedRecord_cons, List.mem_append, List.mem_cons, not_or, not_or]
        exact ⟨fun hc => (hfirst _ hc).2.2.1 rfl, Ne.symm hcomma.2.1, ih hrest⟩
  obtain ⟨c, t, hct, hc⟩ : ∃ c t, quotedRecord comma before field = c :: t ∧ c ≠ '\n' := by
    cases before with
    | nil => exact ⟨'"', field ++ ['"'], quotedRecord_nil field, by decide⟩
    | cons first rest =>
        rw [quotedRecord_cons]
        cases first with
        | nil => exact ⟨_, _, rfl, hcomma.1⟩
        | cons c cs =>
            exact ⟨c, _, rfl, (hbefore _ List.mem_cons_self c List.mem_cons_self).2.1⟩
  have hdrop : (normalize s.toList).dropWhile (· == '\n') = c :: t := by
    rw [hnormal, hs, hct, List.dropWhile_cons_of_neg (by simpa using hc)]
  have hlength : before.length < t.length + 2 := by
    have hle : ∀ before : List (List Char),
        before.length < (quotedRecord comma before field).length := by
      intro before
      induction before with
      | nil => simp [quotedRecord_nil]
      | cons first rest ih =>
          rw [quotedRecord_cons, List.length_append, List.length_cons, List.length_cons]
          omega
    have hb := hle before
    rw [hct, List.length_cons] at hb
    omega
  rw [read_of_cons hdrop, ← hct,
    fields_quotedRecord ⟨hcomma.1, hcomma.2.2⟩ hbefore hquote hlength, Option.map_some]

end Csv
end IntegrityShield
