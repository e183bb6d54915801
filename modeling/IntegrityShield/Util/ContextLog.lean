/-
# The context log

`ContextLogger` of `shield/pkg/util/logger/context.go`.  Every request that is logged appends a line
to one file.  Before that it looks at the size of the file, and removes a file that is too large, so
that the next line begins a new one.

The requests are served concurrently and nothing is locked.  Here a request takes a step for each
call of the operating system (`advance`).  A file that has been removed is still there for those who
have opened it, and a request that has found the file small enough may append its line when the file
has grown, or to another file.  All the same no file ever grows beyond the limit by more than one
line for each request that is served at the same time (`size_le`).

The log is enabled, the limit and the file are those of the configuration, which stays the same
here, and a write that fails writes nothing.
-/

import IntegrityShield.Base.Interleaving
import IntegrityShield.Base.Strings
import Mathlib.Data.Fintype.Card

namespace IntegrityShield
namespace Util
namespace ContextLog

open Interleaving

/-! ## Files -/

/-- The directory of the log, with all the files there have been: which of them has the name, what
was written to each, and the number of files. -/
structure LogDir where
  path : Option ℕ := none
  lines : ℕ → List String := fun _ => []
  fresh : ℕ := 0

/-- The bytes of some lines; each ends with a newline. -/
def sizeOf (lines : List String) : ℕ := (lines.map fun line => line.utf8ByteSize + 1).sum

/-- `os.OpenFile` with `O_CREATE`. -/
def LogDir.openFile (dir : LogDir) : ℕ × LogDir :=
  match dir.path with
  | some n => (n, dir)
  | none => (dir.fresh, {
      path := some dir.fresh
      lines := Function.update dir.lines dir.fresh []
      fresh := dir.fresh + 1 })

/-- A write to a file that was opened with `O_APPEND`. -/
def LogDir.append (dir : LogDir) (n : ℕ) (line : String) : LogDir :=
  { dir with lines := Function.update dir.lines n (dir.lines n ++ [line]) }

/-! ## Requests -/

/-- Where a request is in `SendLog`, with its line. -/
inductive Writer where
  /-- not in `SendLog` -/
  | idle
  /-- before the file is opened to look at its size -/
  | called (line : String)
  /-- before `Stat` -/
  | opened (line : String) (n : ℕ)
  /-- before `os.Remove` -/
  | full (line : String)
  /-- before the file is opened to append to it -/
  | checked (line : String)
  /-- before the line is written -/
  | appending (line : String) (n : ℕ)

/-- What a step gets from outside: the line of the next request, or whether the call of the
operating system fails. -/
structure Input where
  line : String := ""
  fails : Bool := false

/-- One step of a request.  An error ends `SendLog`, and the line is not written. -/
def advance (limitSize : ℕ) (input : Input) (p : Writer) (dir : LogDir) : Writer × LogDir :=
  match p with
  | .idle => (.called input.line, dir)
  | .called line =>
      if input.fails then (.idle, dir)
      else (.opened line dir.openFile.1, dir.openFile.2)
  | .opened line n =>
      if input.fails then (.idle, dir)
      else if sizeOf (dir.lines n) > limitSize then (.full line, dir)
      else (.checked line, dir)
  | .full line =>
      if input.fails then (.idle, dir)
      else
        match dir.path with
        | some _ => (.checked line, { dir with path := none })
        -- another request was faster
        | none => (.idle, dir)
  | .checked line =>
      if input.fails then (.idle, dir)
      else (.appending line dir.openFile.1, dir.openFile.2)
  | .appending line n =>
      if input.fails then (.idle, dir)
      else (.idle, dir.append n line)

/-- The requests that are served at the same time. -/
def writers (limitSize : ℕ) : Program Unit Input Empty Writer LogDir where
  create _ := .idle
  advance := advance limitSize
  environment e := e.elim

/-- A server that has logged nothing yet. -/
def started (ι : Type) : System ι Writer LogDir where
  shared := {}
  processes _ := some .idle

/-! ## The size of a file -/

variable {ι : Type} {limitSize lineSize : ℕ}

theorem sizeOf_append (lines : List String) (line : String) :
    sizeOf (lines ++ [line]) = sizeOf lines + (line.utf8ByteSize + 1) := by
  simp [sizeOf]

/-- The line that a request has to write. -/
def Writer.line : Writer → String
  | .idle => ""
  | .called line => line
  | .opened line _ => line
  | .full line => line
  | .checked line => line
  | .appending line _ => line

/-- A request that may append to a file even if it is too large: it has opened it, or it has found
it small enough, or another one that had the name before. -/
def mayAppend (dir : LogDir) (n : ℕ) : Writer → Bool
  | .appending _ m => m == n
  | .checked _ => dir.path == some n
  | .opened _ m => dir.path == some n && m != n
  | _ => false

/-- Who may append to a file changes only when the file gets the name. -/
theorem mayAppend_of_path {dir dir' : LogDir} {n : ℕ} {q : Writer}
    (hpath : dir'.path = some n → dir.path = some n) (h : mayAppend dir' n q = true) :
    mayAppend dir n q = true := by
  cases q with
  | appending line m => exact h
  | checked line => exact beq_iff_eq.2 (hpath (beq_iff_eq.1 h))
  | opened line m =>
      obtain ⟨hnamed, hne⟩ := Bool.and_eq_true_iff.1 h
      exact Bool.and_eq_true_iff.2 ⟨beq_iff_eq.2 (hpath (beq_iff_eq.1 hnamed)), hne⟩
  | idle => cases h
  | called line => cases h
  | full line => cases h

/-- Opening the file changes nothing or creates it. -/
theorem openFile_cases (dir : LogDir) :
    dir.path = some dir.openFile.1 ∧ dir.openFile.2 = dir ∨
      dir.openFile.2.path = some dir.openFile.1 ∧
        dir.openFile.2.lines = Function.update dir.lines dir.openFile.1 [] := by
  unfold LogDir.openFile
  cases dir.path with
  | some n => exact Or.inl ⟨rfl, rfl⟩
  | none => exact Or.inr ⟨rfl, rfl⟩

theorem path_openFile (dir : LogDir) : dir.openFile.2.path = some dir.openFile.1 := by
  rcases openFile_cases dir with ⟨hpath, hsame⟩ | ⟨hpath, -⟩
  · rw [hsame, hpath]
  · exact hpath

/-- What a step does to one file. -/
inductive Effect (limitSize n : ℕ) (p : Writer) (dir : LogDir) (p' : Writer) (dir' : LogDir) :
    Prop where
  /-- It stays as it is.  No request may append to it that might not before, apart from the one that
  takes the step, and that one only if the file is small enough. -/
  | same (hsize : sizeOf (dir'.lines n) = sizeOf (dir.lines n))
      (hothers : ∀ q, mayAppend dir' n q = true → mayAppend dir n q = true)
      (hown : mayAppend dir' n p' = true →
        mayAppend dir n p = true ∨ sizeOf (dir.lines n) ≤ limitSize)
  /-- It is new. -/
  | created (hsize : sizeOf (dir'.lines n) = 0)
  /-- The request has appended its line, and has no more to append. -/
  | appended (hsize : sizeOf (dir'.lines n) = sizeOf (dir.lines n) + (p.line.utf8ByteSize + 1))
      (hothers : ∀ q, mayAppend dir' n q = true → mayAppend dir n q = true)
      (hown : mayAppend dir n p = true) (hdone : mayAppend dir' n p' = false)

/-- A step after which the request may not append. -/
theorem effect_of_not_mayAppend (limitSize n : ℕ) (dir : LogDir) {p p' : Writer}
    (h : mayAppend dir n p' = false) : Effect limitSize n p dir p' dir :=
  .same rfl (fun _ hq => hq) fun hown => absurd (h.symm.trans hown) Bool.false_ne_true

/-- The request that opens a file may append to this file at most, and only if it might before. -/
theorem effect_openFile (limitSize n : ℕ) (dir : LogDir) {p p' : Writer}
    (hown : mayAppend dir.openFile.2 n p' = true →
      dir.openFile.1 = n ∧ (dir.path = some n → mayAppend dir n p = true)) :
    Effect limitSize n p dir p' dir.openFile.2 := by
  rcases openFile_cases dir with ⟨hpath, hsame⟩ | ⟨hpath, hlines⟩
  · rw [hsame] at hown ⊢
    refine .same rfl (fun _ hq => hq) fun h => Or.inl ?_
    exact (hown h).2 ((hown h).1 ▸ hpath)
  · by_cases hn : dir.openFile.1 = n
    · refine .created ?_
      rw [hlines, hn, Function.update_self]
      rfl
    · have hothers : dir.openFile.2.path = some n → dir.path = some n := fun h =>
        absurd (Option.some.inj (hpath.symm.trans h)) hn
      refine .same ?_ (fun q => mayAppend_of_path hothers) fun h => absurd (hown h).1 hn
      rw [hlines, Function.update_of_ne (Ne.symm hn)]

theorem effect_append (limitSize n m : ℕ) (line : String) (dir : LogDir) :
    Effect limitSize n (.appending line m) dir .idle (dir.append m line) := by
  by_cases hn : n = m
  · subst hn
    refine .appended ?_ (fun q hq => mayAppend_of_path (fun h => h) hq) (beq_self_eq_true n) rfl
    simp [LogDir.append, sizeOf_append, Writer.line]
  · refine .same ?_ (fun q hq => mayAppend_of_path (fun h => h) hq) fun h => by cases h
    simp [LogDir.append, hn]

/-- Every step does to a file what `Effect` says. -/
theorem effect_advance (limitSize n : ℕ) (input : Input) (p : Writer) (dir : LogDir) :
    Effect limitSize n p dir (advance limitSize input p dir).1
      (advance limitSize input p dir).2 := by
  fun_cases advance limitSize input p dir with
  | case3 line =>
      -- a file is not measured by the one that has just opened it
      refine effect_openFile limitSize n dir fun h => absurd h ?_
      simp [mayAppend, path_openFile]
  | case6 line m _ hsmall =>
      refine .same rfl (fun _ hq => hq) fun hpath => ?_
      by_cases hm : m = n
      · exact Or.inr (hm ▸ Nat.le_of_not_lt hsmall)
      · exact Or.inl (Bool.and_eq_true_iff.2 ⟨hpath, bne_iff_ne.2 hm⟩)
  | case8 line _ m hpath =>
      -- no file has the name now
      exact .same rfl (fun q => mayAppend_of_path fun h => by cases h) fun h => by cases h
  | case11 line =>
      exact effect_openFile limitSize n dir fun h => ⟨beq_iff_eq.1 h, beq_iff_eq.2⟩
  | case13 line m => exact effect_append limitSize n m line dir
  | _ => exact effect_of_not_mayAppend limitSize n dir rfl

section Run

variable [Fintype ι]

/-- The requests that may append to a file even if it is too large. -/
def pending (sys : System ι Writer LogDir) (n : ℕ) : Finset ι :=
  Finset.univ.filter fun i => (sys.processes i).any (mayAppend sys.shared n) = true

theorem mem_pending {sys : System ι Writer LogDir} {n : ℕ} {i : ι} :
    i ∈ pending sys n ↔ ∃ p, sys.processes i = some p ∧ mayAppend sys.shared n p = true := by
  simp [pending, Option.any_eq_true]

variable [DecidableEq ι]

/-- Which requests may append to a file after a step that gives the others no leave to do so. -/
theorem pending_step_subset {sys : System ι Writer LogDir} {i : ι} {p : Writer}
    (hp : sys.processes i = some p) {n : ℕ} {input : Input} {target : Finset ι}
    (hothers : ∀ q, mayAppend (advance limitSize input p sys.shared).2 n q = true →
      mayAppend sys.shared n q = true)
    (htarget : ∀ j ∈ pending sys n, j ≠ i → j ∈ target)
    (hown : mayAppend (advance limitSize input p sys.shared).2 n
      (advance limitSize input p sys.shared).1 = true → i ∈ target) :
    pending (step (writers limitSize) sys (.advance i input)) n ⊆ target := by
  intro j hj
  obtain ⟨q, hq, hmay⟩ := mem_pending.1 hj
  rw [shared_step_advance (writers limitSize) hp] at hmay
  by_cases hji : j = i
  · subst hji
    rw [step_advance (writers limitSize) hp] at hq
    exact hown (Option.some.inj hq ▸ hmay)
  · have hother : (Action.advance i input : Action ι Unit Input Empty).process ≠ some j :=
      fun h => hji (Option.some.inj h).symm
    rw [step_of_other (writers limitSize) hother] at hq
    exact htarget j (mem_pending.2 ⟨q, hq, hothers q hmay⟩) hji

/-- A file is small enough, or it has room for the lines of those who may append to it. -/
def Bounded (limitSize lineSize : ℕ) (sys : System ι Writer LogDir) (n : ℕ) : Prop :=
  sizeOf (sys.shared.lines n) ≤ limitSize ∨
    sizeOf (sys.shared.lines n) + (pending sys n).card * (lineSize + 1) ≤
      limitSize + Fintype.card ι * (lineSize + 1)

theorem bounded_advance {sys : System ι Writer LogDir} {i : ι} {p : Writer}
    (hp : sys.processes i = some p) (hline : p.line.utf8ByteSize ≤ lineSize) {n : ℕ}
    (h : Bounded limitSize lineSize sys n) (input : Input) :
    Bounded limitSize lineSize (step (writers limitSize) sys (.advance i input)) n := by
  have hshared : (step (writers limitSize) sys (.advance i input)).shared =
      (advance limitSize input p sys.shared).2 := shared_step_advance (writers limitSize) hp input
  unfold Bounded at h ⊢
  rw [hshared]
  cases effect_advance limitSize n input p sys.shared with
  | same hsize hothers hown =>
      by_cases hsmall : sizeOf (sys.shared.lines n) ≤ limitSize
      · exact Or.inl (hsize.trans_le hsmall)
      · have hsubset : pending (step (writers limitSize) sys (.advance i input)) n ⊆
            pending sys n :=
          pending_step_subset hp hothers (fun j hj _ => hj) fun hmay =>
            mem_pending.2 ⟨p, hp, (hown hmay).resolve_right hsmall⟩
        refine Or.inr (le_trans ?_ (h.resolve_left hsmall))
        exact Nat.add_le_add hsize.le (Nat.mul_le_mul_right _ (Finset.card_le_card hsubset))
  | created hsize => exact Or.inl (hsize.trans_le (Nat.zero_le _))
  | appended hsize hothers hown hdone =>
      have hmem : i ∈ pending sys n := mem_pending.2 ⟨p, hp, hown⟩
      have hsubset : pending (step (writers limitSize) sys (.advance i input)) n ⊆
          (pending sys n).erase i :=
        pending_step_subset hp hothers (fun j hj hji => Finset.mem_erase.2 ⟨hji, hj⟩) fun hmay =>
          absurd (hdone.symm.trans hmay) Bool.false_ne_true
      -- the line it has written was accounted for
      have hcard : (pending (step (writers limitSize) sys (.advance i input)) n).card + 1 ≤
          (pending sys n).card := by
        rw [← Finset.card_erase_add_one hmem]
        exact Nat.succ_le_succ (Finset.card_le_card hsubset)
      have hroom := Nat.mul_le_mul_right (lineSize + 1) hcard
      have hall := Nat.mul_le_mul_right (lineSize + 1) (Finset.card_le_univ (pending sys n))
      rw [Nat.succ_mul] at hroom
      refine Or.inr ?_
      rcases h with h | h <;> omega

theorem line_advance (limitSize : ℕ) {input : Input} (hinput : input.line.utf8ByteSize ≤ lineSize)
    {p : Writer} (hp : p.line.utf8ByteSize ≤ lineSize) (dir : LogDir) :
    (advance limitSize input p dir).1.line.utf8ByteSize ≤ lineSize := by
  have hidle : Writer.idle.line.utf8ByteSize ≤ lineSize := Nat.zero_le _
  fun_cases advance limitSize input p dir with
  | case1 => exact hinput
  | _ => first | exact hp | exact hidle

/-- All requests have short lines, and all files are bounded. -/
structure Kept (limitSize lineSize : ℕ) (sys : System ι Writer LogDir) : Prop where
  short : ∀ i, ∃ p, sys.processes i = some p ∧ p.line.utf8ByteSize ≤ lineSize
  bounded : ∀ n, Bounded limitSize lineSize sys n

/-- The request of an action has a short line. -/
def Short (lineSize : ℕ) : Action ι Unit Input Empty → Prop
  | .advance _ input => input.line.utf8ByteSize ≤ lineSize
  | _ => True

theorem kept_step {sys : System ι Writer LogDir} {a : Action ι Unit Input Empty}
    (hkept : Kept limitSize lineSize sys) (hshort : Short lineSize a) :
    Kept limitSize lineSize (step (writers limitSize) sys a) := by
  cases a with
  | spawn i s =>
      obtain ⟨p, hp, -⟩ := hkept.short i
      simpa only [step, hp] using hkept
  | environment e => exact e.elim
  | advance i input =>
      obtain ⟨p, hp, hline⟩ := hkept.short i
      refine ⟨fun j => ?_, fun n => bounded_advance hp hline (hkept.bounded n) input⟩
      by_cases hji : j = i
      · subst hji
        exact ⟨_, step_advance (writers limitSize) hp input, line_advance limitSize hshort hline _⟩
      · have hother : (Action.advance i input : Action ι Unit Input Empty).process ≠ some j :=
          fun h => hji (Option.some.inj h).symm
        rw [step_of_other (writers limitSize) hother]
        exact hkept.short j

omit [DecidableEq ι] in
theorem kept_started : Kept limitSize lineSize (started ι) :=
  ⟨fun _ => ⟨.idle, rfl, Nat.zero_le _⟩, fun _ => Or.inl (Nat.zero_le _)⟩

/-- **The log is bounded**: in whatever order the requests look at the log, remove it and write
their lines, no file is ever larger than the limit by more than one line for each of the requests
that are served at the same time. -/
theorem size_le {actions : List (Action ι Unit Input Empty)}
    (hshort : ∀ a ∈ actions, Short lineSize a) (n : ℕ) :
    sizeOf ((run (writers limitSize) (started ι) actions).shared.lines n) ≤
      limitSize + Fintype.card ι * (lineSize + 1) := by
  have hmeets : Meets (writers limitSize) (fun _ => Short lineSize) (started ι) actions :=
    meets_of_forall_mem (fun a ha _ => hshort a ha) _
  have hkept : Kept limitSize lineSize (run (writers limitSize) (started ι) actions) :=
    run_invariant (Kept limitSize lineSize) (fun _ _ => kept_step) kept_started hmeets
  rcases hkept.bounded n with hsmall | hroom
  · exact hsmall.trans (Nat.le_add_right _ _)
  · exact (Nat.le_add_right _ _).trans hroom

end Run

/-- Two requests that write at the same time to a log that may have three bytes.  Both of them find
it small enough, and the next line begins a new file. -/
theorem size_le_racing :
    let turns : List (Fin 2) := [0, 0, 0, 1, 1, 1, 0, 0, 1, 1, 0, 0, 0, 0, 0, 0]
    let log := (run (writers 3) (started (Fin 2)) (turns.map (.advance · ⟨"abc", false⟩))).shared
    (sizeOf (log.lines 0) = 8 ∧ sizeOf (log.lines 1) = 4) ∧
      sizeOf (log.lines 0) ≤ 3 + Fintype.card (Fin 2) * (3 + 1) := by
  intro turns log
  refine ⟨by decide +kernel, size_le (fun a ha => ?_) 0⟩
  obtain ⟨i, -, rfl⟩ := List.mem_map.1 ha
  exact (by decide : "abc".utf8ByteSize ≤ 3)

end ContextLog
end Util
end IntegrityShield
