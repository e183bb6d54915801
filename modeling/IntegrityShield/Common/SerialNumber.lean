/-
# Serial numbers

`MatchBigInt` of `shield/pkg/common/pattern.go`, as `SubjectCondition.Match` of `policy.go` calls
it.  A serial number pattern is a decimal number, or hexadecimal digits with colons between
them, and the serial number of a certificate is an integer of up to 160 bits.

A hexadecimal pattern is read as an integer of any size and compared as such
(`matchBigInt_hexadecimal`).  A decimal one is read by `strconv.Atoi`, and the serial number is
cut down to its low 64 bits to be compared with it (`matchBigInt_decimal`).  Both follow the
pointer to the serial number, and a PGP signer has none.  `matchSigner_serialNumber_iff` says for
which signers and patterns the comparison is one of integers all the same.
-/

import IntegrityShield.Common.Policy

namespace IntegrityShield
namespace Common

/-- The integer that a decimal text denotes, a sign before it or not. -/
def decimalValue (s : String) : Option ℤ :=
  match s.toList with
  | '-' :: ds => (Strings.digits ds).map fun n : ℕ => -(n : ℤ)
  | '+' :: ds => (Strings.digits ds).map fun n : ℕ => (n : ℤ)
  | ds => (Strings.digits ds).map fun n : ℕ => (n : ℤ)

/-- The integer that hexadecimal digits with colons between them denote. -/
def hexadecimalValue (s : String) : Option ℤ :=
  let parts := s.toList.splitOn ':'
  if 2 ≤ parts.length ∧ ∀ part ∈ parts, (hexNat part).isSome then
    (hexNat parts.flatten).map fun n : ℕ => (n : ℤ)
  else none

/-- The integer that a serial number pattern denotes, the blanks around it apart. -/
def DenotesNumber (pattern : String) (n : ℤ) : Prop :=
  decimalValue (Strings.trimSpace pattern) = some n ∨
    hexadecimalValue (Strings.trimSpace pattern) = some n

/-- The integers of 64 bits. -/
def FitsInt64 (n : ℤ) : Prop := -2 ^ 63 ≤ n ∧ n < 2 ^ 63

instance (n : ℤ) : Decidable (FitsInt64 n) := inferInstanceAs (Decidable (_ ∧ _))

/-! ## Decimal patterns -/

theorem bmod_of_fitsInt64 {n : ℤ} (h : FitsInt64 n) : n.bmod (2 ^ 64) = n := by
  obtain ⟨hle, hlt⟩ := h
  exact Int.bmod_eq_of_le (by omega) (by omega)

theorem fitsInt64_bmod (n : ℤ) : FitsInt64 (n.bmod (2 ^ 64)) := by
  have hle := Int.le_bmod (x := n) (m := 2 ^ 64) (by decide)
  have hlt := Int.bmod_lt (x := n) (m := 2 ^ 64) (by decide)
  exact ⟨by omega, by omega⟩

/-- What `Atoi` makes of a decimal text: its number, if that fits. -/
theorem atoi_of_decimalValue {s : String} {n : ℤ} (h : decimalValue s = some n) :
    (FitsInt64 n → Strings.atoi s = (n, none)) ∧
      (¬FitsInt64 n → (Strings.atoi s).2 = some .range) := by
  -- a minus allows for one number more than no sign and a plus do
  have hunsigned : ∀ k : ℕ, Strings.atoi s =
      (if k < 2 ^ 63 then ((k : ℤ), none) else (2 ^ 63 - 1, some .range)) →
      (FitsInt64 k → Strings.atoi s = (↑k, none)) ∧
        (¬FitsInt64 k → (Strings.atoi s).2 = some .range) := by
    intro k hatoi
    rw [hatoi]
    constructor
    · rintro ⟨_, hlt⟩
      rw [if_pos (by omega)]
    · intro hfits
      rw [if_neg fun hlt => hfits ⟨by omega, by omega⟩]
  rw [decimalValue] at h
  split at h
  · rename_i ds hs
    obtain ⟨k, hk, rfl⟩ := Option.map_eq_some_iff.1 h
    simp only [Strings.atoi, hs, hk]
    constructor
    · rintro ⟨hle, _⟩
      rw [if_pos (by omega)]
    · intro hfits
      rw [if_neg fun hle => hfits ⟨by omega, by omega⟩]
  · rename_i ds hs
    obtain ⟨k, hk, rfl⟩ := Option.map_eq_some_iff.1 h
    refine hunsigned k (Strings.atoi_of_not_minus (fun ds' hds' => ?_) ?_)
    · exact absurd (List.cons.inj (hs.symm.trans hds')).1 (by decide)
    · rw [hs, List.head?_cons, if_pos rfl, List.tail_cons, hk]
  · rename_i hminus hplus
    obtain ⟨k, hk, rfl⟩ := Option.map_eq_some_iff.1 h
    refine hunsigned k (Strings.atoi_of_not_minus hminus ?_)
    rw [if_neg, hk]
    intro hhead
    obtain ⟨ds, hds⟩ := List.head?_eq_some_iff.1 hhead
    exact hplus ds hds

/-- The characters of a decimal text. -/
theorem mem_of_decimalValue {s : String} {n : ℤ} (h : decimalValue s = some n) {c : Char}
    (hc : c ∈ s.toList) : c = '-' ∨ c = '+' ∨ c.isDigit = true := by
  have hdigits : ∀ {ds : List Char} {k : ℕ}, Strings.digits ds = some k → ∀ c ∈ ds,
      c.isDigit = true := by
    intro ds k hk
    rw [Strings.digits] at hk
    split at hk
    · rename_i hall
      exact List.all_eq_true.1 hall.2
    · cases hk
  rw [decimalValue] at h
  split at h
  · rename_i ds hs
    obtain ⟨k, hk, _⟩ := Option.map_eq_some_iff.1 h
    rcases List.mem_cons.1 (hs ▸ hc) with rfl | hc
    · exact .inl rfl
    · exact .inr (.inr (hdigits hk c hc))
  · rename_i ds hs
    obtain ⟨k, hk, _⟩ := Option.map_eq_some_iff.1 h
    rcases List.mem_cons.1 (hs ▸ hc) with rfl | hc
    · exact .inr (.inl rfl)
    · exact .inr (.inr (hdigits hk c hc))
  · obtain ⟨k, hk, _⟩ := Option.map_eq_some_iff.1 h
    exact .inr (.inr (hdigits hk c hc))

/-- **A decimal pattern** is compared with the low 64 bits of the serial number, and with none if
it does not fit into them itself. -/
theorem matchBigInt_decimal {pattern : String} {n : ℤ}
    (h : decimalValue (Strings.trimSpace pattern) = some n) (undefined : String → ℤ)
    (value : Option ℤ) :
    matchBigInt undefined pattern value =
      if FitsInt64 n then (Go.deref value).map fun serial => n == serial.bmod (2 ^ 64)
      else .ok false := by
  have hne : ∀ other, decimalValue other = none → Strings.trimSpace pattern ≠ other := by
    rintro other hother rfl
    rw [h] at hother
    cases hother
  have hcolon : ¬Strings.contains (Strings.trimSpace pattern) ":" = true := by
    intro hcolon
    rcases mem_of_decimalValue h ((Strings.contains_char_iff _ ':').1 hcolon) with hc | hc | hc
    · exact absurd hc (by decide)
    · exact absurd hc (by decide)
    · exact absurd hc (by decide)
  obtain ⟨hfits, hrange⟩ := atoi_of_decimalValue h
  rw [Bool.not_eq_true] at hcolon
  simp only [matchBigInt, hne "" (by decide), hne "*" (by decide), hne "-" (by decide), false_and,
    if_false, hcolon, Bool.false_eq_true]
  split_ifs with hn
  · rw [hfits hn]
    cases value <;> rfl
  · split
    · rename_i i herr
      have := hrange hn
      rw [herr] at this
      cases this
    · rfl

/-! ## Hexadecimal patterns -/

theorem flatten_splitOn (sep : Char) (l : List Char) :
    (l.splitOn sep).flatten = l.filter (· != sep) := by
  induction l with
  | nil => rfl
  | cons c rest ih =>
      rw [List.splitOn_cons_eq_if_modifyHead]
      obtain ⟨first, parts, hparts⟩ := List.exists_cons_of_ne_nil (List.splitOn_ne_nil sep rest)
      rw [hparts] at ih ⊢
      split
      · rename_i hc
        rw [List.filter_cons_of_neg (by simpa using hc), ← ih]
        rfl
      · rename_i hc
        rw [List.filter_cons_of_pos (by simpa using hc), ← ih]
        rfl

/-- A text that starts with no hexadecimal digit is no hexadecimal number. -/
theorem hexNat_cons_eq_none {c : Char} (hdigit : c.isDigit = false)
    (hlower : ¬('a' ≤ c ∧ c ≤ 'f')) (hupper : ¬('A' ≤ c ∧ c ≤ 'F')) (ds : List Char) :
    hexNat (c :: ds) = none := by
  rw [hexNat, if_neg (List.cons_ne_nil c ds), List.foldl_cons]
  simp only [Option.bind_some, hdigit, Bool.false_eq_true, if_false, hlower, hupper]
  induction ds with
  | nil => rfl
  | cons d rest ih => exact ih

/-- `SetString` of hexadecimal digits. -/
theorem setString16_of_hexNat {s : String} {n : ℕ} (h : hexNat s.toList = some n)
    (undefined : String → ℤ) : setString16 undefined s = n := by
  unfold setString16
  split
  · rename_i ds hs
    rw [hs, hexNat_cons_eq_none (by decide) (by decide) (by decide)] at h
    cases h
  · rename_i ds hs
    rw [hs, hexNat_cons_eq_none (by decide) (by decide) (by decide)] at h
    cases h
  · rw [h]
    rfl

theorem colon_mem_of_hexadecimalValue {s : String} {n : ℤ} (h : hexadecimalValue s = some n) :
    ':' ∈ s.toList ∧ ∃ k : ℕ, n = k ∧ hexNat (s.toList.splitOn ':').flatten = some k := by
  rw [hexadecimalValue] at h
  split at h
  · rename_i hparts
    obtain ⟨k, hk, rfl⟩ := Option.map_eq_some_iff.1 h
    refine ⟨?_, k, rfl, hk⟩
    by_contra hcolon
    rw [List.splitOn_eq_singleton hcolon, List.length_singleton] at hparts
    exact absurd hparts.1 (by decide)
  · cases h

/-- **A hexadecimal pattern** is compared with the serial number. -/
theorem matchBigInt_hexadecimal {pattern : String} {n : ℤ}
    (h : hexadecimalValue (Strings.trimSpace pattern) = some n) (undefined : String → ℤ)
    (value : Option ℤ) :
    matchBigInt undefined pattern value = (Go.deref value).map fun serial => n == serial := by
  have hne : ∀ other, hexadecimalValue other = none → Strings.trimSpace pattern ≠ other := by
    rintro other hother rfl
    rw [h] at hother
    cases hother
  obtain ⟨hcolon, k, rfl, hk⟩ := colon_mem_of_hexadecimalValue h
  have hread : pattern2BigInt undefined (Strings.trimSpace pattern) = k := by
    refine setString16_of_hexNat ?_ undefined
    rw [Strings.replaceAll_char_empty _ ':', ← flatten_splitOn, hk]
  simp only [matchBigInt, hne "" (by decide), hne "*" (by decide), hne "-" (by decide), false_and,
    if_false, (Strings.contains_char_iff _ ':').2 hcolon, if_true, hread]
  cases value <;> rfl

/-! ## The comparison -/

/-- A number of 64 bits, or one that is neither the pattern's nor has it as its low 64 bits. -/
theorem eq_bmod_iff {n serial : ℤ} :
    ((FitsInt64 n ∧ n = serial.bmod (2 ^ 64)) ↔ serial = n) ↔
      FitsInt64 serial ∨ n ≠ serial ∧ n ≠ serial.bmod (2 ^ 64) := by
  by_cases hserial : FitsInt64 serial
  · refine iff_of_true ?_ (.inl hserial)
    rw [bmod_of_fitsInt64 hserial]
    constructor
    · exact fun h => h.2.symm
    · rintro rfl
      exact ⟨hserial, rfl⟩
  · rw [or_iff_right hserial]
    constructor
    · intro h
      constructor
      · rintro rfl
        exact hserial (h.2 rfl).1
      · rintro rfl
        exact hserial (h.1 ⟨fitsInt64_bmod _, rfl⟩ ▸ fitsInt64_bmod _)
    · rintro ⟨hne, hlow⟩
      exact iff_of_false (fun h => hlow h.2) fun h => hne h.symm

section Compare

variable [UndefinedBigInt] (sc : SubjectCondition) (signer : SignerInfo)

/-- The match returns, and a pattern that denotes an integer matches that serial number alone. -/
def ComparesIntegers : Prop :=
  (∃ matched, sc.matchSigner signer = .ok matched) ∧
    ∀ n, DenotesNumber sc.subject.serialNumber n → ∃ matched,
      matchBigInt UndefinedBigInt.undefined sc.subject.serialNumber signer.serialNumber =
        .ok matched ∧ (matched = true ↔ signer.serialNumber = some n)

theorem exists_matchSigner_iff :
    (∃ matched, sc.matchSigner signer = .ok matched) ↔ ¬sc.ComparesNil signer := by
  cases hmatch : sc.matchSigner signer with
  | ok matched =>
      refine iff_of_true ⟨matched, rfl⟩ fun hnil => ?_
      rw [(sc.matchSigner_eq_error_iff signer .nilDeref).2 ⟨rfl, hnil⟩] at hmatch
      cases hmatch
  | error e =>
      refine iff_of_false ?_ (not_not.2 ((sc.matchSigner_eq_error_iff signer e).1 hmatch).2)
      rintro ⟨_, h⟩
      cases h

/-- A signer without a serial number: a pattern must not ask for one. -/
theorem comparesIntegers_none (hserial : signer.serialNumber = none) :
    ComparesIntegers sc signer ↔ (AsksNumber sc.subject.serialNumber →
      ¬sc.TextsMatch signer ∧ ∀ n, ¬DenotesNumber sc.subject.serialNumber n) := by
  rw [ComparesIntegers, exists_matchSigner_iff, hserial]
  by_cases hasks : AsksNumber sc.subject.serialNumber
  · have hfault := (matchBigInt_none UndefinedBigInt.undefined sc.subject.serialNumber
      .nilDeref).2 ⟨rfl, hasks⟩
    rw [imp_iff_right hasks]
    refine and_congr (not_congr ⟨fun h => h.1, fun h => ⟨h, hserial, hasks⟩⟩) ?_
    refine forall_congr' fun n => ⟨fun h hn => ?_, fun h hn => absurd hn h⟩
    obtain ⟨matched, hmatched, _⟩ := h hn
    rw [hfault] at hmatched
    cases hmatched
  · refine iff_of_true ⟨fun h => hasks h.2.2, fun n hn => ?_⟩ fun h => absurd h hasks
    have hreturns : ∀ e, matchBigInt UndefinedBigInt.undefined sc.subject.serialNumber none ≠
        .error e := fun e he => hasks ((matchBigInt_none _ _ e).1 he).2
    rcases hn with hn | hn
    · rw [matchBigInt_decimal hn] at hreturns ⊢
      split_ifs at hreturns ⊢
      · exact absurd rfl (hreturns .nilDeref)
      · exact ⟨false, rfl, by simp⟩
    · rw [matchBigInt_hexadecimal hn] at hreturns
      exact absurd rfl (hreturns .nilDeref)

/-- A serial number that is there: it fits into 64 bits, or a decimal pattern is neither it nor
its low 64 bits. -/
theorem comparesIntegers_some {serial : ℤ} (hserial : signer.serialNumber = some serial) :
    ComparesIntegers sc signer ↔
      ∀ n, decimalValue (Strings.trimSpace sc.subject.serialNumber) = some n →
        FitsInt64 serial ∨ n ≠ serial ∧ n ≠ serial.bmod (2 ^ 64) := by
  have hreturns : ¬sc.ComparesNil signer := fun h => by
    rw [h.2.1] at hserial
    cases hserial
  rw [ComparesIntegers, exists_matchSigner_iff, and_iff_right hreturns, hserial]
  refine forall_congr' fun n => ?_
  constructor
  · intro h hn
    obtain ⟨matched, hmatched, hiff⟩ := h (.inl hn)
    rw [← eq_bmod_iff, ← Option.some_inj (a := serial), ← hiff]
    rw [matchBigInt_decimal hn] at hmatched
    split_ifs at hmatched with hfits
    · rw [← Except.ok.inj hmatched, beq_iff_eq, and_iff_right hfits]
    · rw [← Except.ok.inj hmatched]
      exact iff_of_false (fun h => hfits h.1) Bool.false_ne_true
  · rintro h (hn | hn)
    · have hiff := eq_bmod_iff.2 (h hn)
      rw [matchBigInt_decimal hn, Option.some_inj, ← hiff]
      split_ifs with hfits
      · exact ⟨_, rfl, by rw [beq_iff_eq, and_iff_right hfits]⟩
      · exact ⟨false, rfl, iff_of_false Bool.false_ne_true fun h => hfits h.1⟩
    · rw [matchBigInt_hexadecimal hn]
      exact ⟨_, rfl, by rw [beq_iff_eq, Option.some_inj, eq_comm]⟩

/-- **When serial numbers are compared as integers.**  A signer that has none must not be asked
for one by a pattern that denotes a number, or by a subject whose other fields match.  A serial
number beyond 64 bits must be neither the number of a decimal pattern nor have it as its low 64
bits. -/
theorem matchSigner_serialNumber_iff :
    ComparesIntegers sc signer ↔
      (signer.serialNumber = none → AsksNumber sc.subject.serialNumber →
        ¬sc.TextsMatch signer ∧ ∀ n, ¬DenotesNumber sc.subject.serialNumber n) ∧
      ∀ serial ∈ signer.serialNumber, ∀ n,
        decimalValue (Strings.trimSpace sc.subject.serialNumber) = some n →
          FitsInt64 serial ∨ n ≠ serial ∧ n ≠ serial.bmod (2 ^ 64) := by
  cases hserial : signer.serialNumber with
  | none => simp [comparesIntegers_none sc signer hserial]
  | some serial => simp [comparesIntegers_some sc signer hserial]

end Compare

/-- A certificate whose serial number has 65 bits passes for its low 64 bits and not for itself,
and a PGP signer ends the check. -/
theorem matchBigInt_low_bits :
    let _ : UndefinedBigInt := ⟨fun _ => 0⟩
    let low : SubjectCondition := ⟨"ca", "keys", { serialNumber := "5" }⟩
    let whole : SubjectCondition := ⟨"ca", "keys", { serialNumber := "18446744073709551621" }⟩
    let certificate : SignerInfo := { serialNumber := some (2 ^ 64 + 5) }
    DenotesNumber low.subject.serialNumber 5 ∧ low.matchSigner certificate = .ok true ∧
      DenotesNumber whole.subject.serialNumber (2 ^ 64 + 5) ∧
      whole.matchSigner certificate = .ok false ∧
      low.matchSigner { email := "alice@example.com" } = .error .nilDeref := by
  refine ⟨.inl ?_, ?_, .inl ?_, ?_, ?_⟩ <;> decide +kernel

end Common
end IntegrityShield
