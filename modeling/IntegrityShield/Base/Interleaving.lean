/-
# Interleaved processes

Processes that share a state.  A process takes its steps one at a time, reading
and changing the shared state; between two of its steps other processes may take
theirs, new ones may be created, and the environment may change the shared state.
A run is a list of actions, so an interleaving is any such list.

The rule for local invariants (`local_invariant`) needs nothing of the shared
state: what creating a process establishes and every step of a process keeps,
holds of every process in every run.  What a process knows of the shared state
is another matter: the steps of the other processes have to keep it as well
(`interference_free`, and `rely_guarantee` where this is summed up in a relation).
-/

import Mathlib.Data.Nat.Notation
import Mathlib.Logic.Function.Basic

namespace IntegrityShield
namespace Interleaving

variable {ι S A E P C : Type}

/-- What the processes do: how one is created, how it takes a step on an input,
and how the environment changes the shared state. -/
structure Program (S A E P C : Type) where
  create : S → P
  advance : A → P → C → P × C
  environment : E → C → C

/-- The shared state and the processes there are. -/
structure System (ι P C : Type) where
  shared : C
  processes : ι → Option P := fun _ => none

/-- One action. -/
inductive Action (ι S A E : Type) where
  | spawn (i : ι) (s : S)
  | advance (i : ι) (a : A)
  | environment (e : E)

/-- The process that an action is about. -/
def Action.process : Action ι S A E → Option ι
  | .spawn i _ => some i
  | .advance i _ => some i
  | .environment _ => none

variable [DecidableEq ι] (prog : Program S A E P C)

/-- The effect of an action.  One that names a process that is not there, or
creates one that is, changes nothing. -/
def step (sys : System ι P C) : Action ι S A E → System ι P C
  | .spawn i s =>
      match sys.processes i with
      | some _ => sys
      | none => { sys with processes := Function.update sys.processes i (some (prog.create s)) }
  | .advance i a =>
      match sys.processes i with
      | none => sys
      | some p => {
          shared := (prog.advance a p sys.shared).2
          processes := Function.update sys.processes i (some (prog.advance a p sys.shared).1) }
  | .environment e => { sys with shared := prog.environment e sys.shared }

/-- The state after a run. -/
def run (sys : System ι P C) (actions : List (Action ι S A E)) : System ι P C :=
  actions.foldl (step prog) sys

/-- Every action of a run meets a condition on the state it is taken in. -/
def Meets (good : System ι P C → Action ι S A E → Prop) :
    System ι P C → List (Action ι S A E) → Prop
  | _, [] => True
  | sys, a :: rest => good sys a ∧ Meets good (step prog sys a) rest

theorem run_append (sys : System ι P C) (actions more : List (Action ι S A E)) :
    run prog sys (actions ++ more) = run prog (run prog sys actions) more :=
  List.foldl_append

/-- The process that takes a step. -/
theorem step_advance {sys : System ι P C} {i : ι} {p : P} (hp : sys.processes i = some p) (a : A) :
    (step prog sys (.advance i a)).processes i = some (prog.advance a p sys.shared).1 := by
  simp only [step, hp, Function.update_self]

theorem shared_step_advance {sys : System ι P C} {i : ι} {p : P} (hp : sys.processes i = some p)
    (a : A) : (step prog sys (.advance i a)).shared = (prog.advance a p sys.shared).2 := by
  simp only [step, hp]

/-- A step of a process that changes neither it nor the shared state. -/
theorem step_idle {sys : System ι P C} {i : ι} {p : P} (hp : sys.processes i = some p) {a : A}
    (hidle : prog.advance a p sys.shared = (p, sys.shared)) :
    step prog sys (.advance i a) = sys := by
  simp only [step, hp, hidle]
  rw [Function.update_eq_self_iff.2 hp.symm]

/-- The shared state changes with a step of a process or with the environment. -/
theorem step_shared (sys : System ι P C) (a : Action ι S A E) :
    (step prog sys a).shared = sys.shared ∨
    (∃ i b p, a = .advance i b ∧ sys.processes i = some p ∧
      (step prog sys a).shared = (prog.advance b p sys.shared).2) ∨
    ∃ e, a = .environment e ∧ (step prog sys a).shared = prog.environment e sys.shared := by
  cases a with
  | spawn i s =>
      left
      simp only [step]
      split
      · rfl
      · rfl
  | advance i b =>
      cases hp : sys.processes i with
      | none => exact .inl (by simp only [step, hp])
      | some p => exact .inr (.inl ⟨i, b, p, rfl, hp, shared_step_advance prog hp b⟩)
  | environment e => exact .inr (.inr ⟨e, rfl, rfl⟩)

/-- What is not about a process leaves it as it is. -/
theorem step_of_other {j : ι} {a : Action ι S A E} (h : a.process ≠ some j) (sys : System ι P C) :
    (step prog sys a).processes j = sys.processes j := by
  cases a with
  | spawn i s =>
      have hij : j ≠ i := fun hji => h (congrArg some hji.symm)
      simp only [step]
      split
      · rfl
      · exact Function.update_of_ne hij ..
  | advance i b =>
      have hij : j ≠ i := fun hji => h (congrArg some hji.symm)
      simp only [step]
      split
      · rfl
      · exact Function.update_of_ne hij ..
  | environment e => rfl

theorem run_of_others {j : ι} {actions : List (Action ι S A E)}
    (h : ∀ a ∈ actions, a.process ≠ some j) (sys : System ι P C) :
    (run prog sys actions).processes j = sys.processes j := by
  induction actions generalizing sys with
  | nil => rfl
  | cons a rest ih =>
      obtain ⟨hfirst, hrest⟩ := List.forall_mem_cons.1 h
      exact (ih hrest (step prog sys a)).trans (step_of_other prog hfirst sys)

/-- The number of steps that a process takes in a run. -/
def steps (i : ι) (actions : List (Action ι S A E)) : ℕ :=
  actions.countP fun
    | .advance j _ => decide (j = i)
    | _ => false

/-- A process is there to stay, and each of its steps takes it nearer to its end, if every step
does. -/
theorem run_rank {rank : P → ℕ} (hrank : ∀ a p c, rank (prog.advance a p c).1 ≤ rank p - 1)
    {sys : System ι P C} {i : ι} {p : P} (hp : sys.processes i = some p)
    (actions : List (Action ι S A E)) :
    ∃ p', (run prog sys actions).processes i = some p' ∧ rank p' ≤ rank p - steps i actions := by
  induction actions generalizing sys p with
  | nil => exact ⟨p, hp, Nat.le_refl _⟩
  | cons a rest ih =>
      by_cases ha : ∃ b, a = .advance i b
      · obtain ⟨b, rfl⟩ := ha
        obtain ⟨p', hp', hle⟩ := ih (step_advance prog hp b)
        have hstep := hrank b p sys.shared
        have hsteps : steps i (.advance i b :: rest : List (Action ι S A E)) = steps i rest + 1 :=
          List.countP_cons_of_pos (decide_eq_true rfl)
        exact ⟨p', hp', by omega⟩
      · have hsame : (step prog sys a).processes i = some p := by
          by_cases hother : a.process = some i
          · cases a with
            | spawn j s =>
                cases hother
                simp only [step, hp]
            | advance j b =>
                cases hother
                exact absurd ⟨b, rfl⟩ ha
            | environment e => cases hother
          · rw [step_of_other prog hother, hp]
        obtain ⟨p', hp', hle⟩ := ih hsame
        have hsteps : steps i (a :: rest) = steps i rest := by
          refine List.countP_cons_of_neg ?_
          cases a with
          | advance j b =>
              intro hj
              exact ha ⟨b, by rw [of_decide_eq_true hj]⟩
          | spawn j s => exact Bool.false_ne_true
          | environment e => exact Bool.false_ne_true
        exact ⟨p', hp', by rwa [hsteps]⟩

/-- A process that takes some steps while nothing else happens. -/
theorem run_alone {sys : System ι P C} {i : ι} {p : P} (hp : sys.processes i = some p)
    (inputs : List A) :
    (run prog sys (inputs.map fun a => .advance i a)).processes i =
      some (inputs.foldl (fun s a => prog.advance a s.1 s.2) (p, sys.shared)).1 := by
  induction inputs generalizing sys p with
  | nil => exact hp
  | cons a rest ih =>
      have hrest := ih (step_advance prog hp a)
      rw [shared_step_advance prog hp] at hrest
      exact hrest

variable {prog} {good : System ι P C → Action ι S A E → Prop}

theorem meets_append {sys : System ι P C} {actions more : List (Action ι S A E)} :
    Meets prog good sys (actions ++ more) ↔
      Meets prog good sys actions ∧ Meets prog good (run prog sys actions) more := by
  induction actions generalizing sys with
  | nil => exact ⟨fun h => ⟨trivial, h⟩, And.right⟩
  | cons a rest ih => exact (and_congr_right fun _ => ih).trans and_assoc.symm

theorem meets_of_forall_mem {actions : List (Action ι S A E)} (h : ∀ a ∈ actions, ∀ sys, good sys a)
    (sys : System ι P C) : Meets prog good sys actions := by
  induction actions generalizing sys with
  | nil => trivial
  | cons a rest ih =>
      obtain ⟨hfirst, hrest⟩ := List.forall_mem_cons.1 h
      exact ⟨hfirst sys, ih hrest _⟩

theorem meets_of_forall (h : ∀ sys a, good sys a) (sys : System ι P C)
    (actions : List (Action ι S A E)) : Meets prog good sys actions :=
  meets_of_forall_mem (fun a _ sys => h sys a) sys

/-- What every action keeps, a run keeps. -/
theorem run_invariant (inv : System ι P C → Prop)
    (hstep : ∀ sys a, inv sys → good sys a → inv (step prog sys a)) {sys : System ι P C}
    (hinv : inv sys) {actions : List (Action ι S A E)} (hmeets : Meets prog good sys actions) :
    inv (run prog sys actions) := by
  induction actions generalizing sys with
  | nil => exact hinv
  | cons a rest ih => exact ih (hstep sys a hinv hmeets.1) hmeets.2

/-- An action changes at most the one process it is about: what holds of all the
processes before it holds of all of them after it, if it holds of that one. -/
theorem forall_step {inv inv' : ι → P → Prop} {sys : System ι P C} {a : Action ι S A E}
    (hsys : ∀ i p, sys.processes i = some p → inv i p) (hkeep : ∀ i p, inv i p → inv' i p)
    (hcreate : ∀ i s, a = .spawn i s → inv' i (prog.create s))
    (hadvance : ∀ i b p, a = .advance i b → sys.processes i = some p → inv i p →
      inv' i (prog.advance b p sys.shared).1) :
    ∀ i p, (step prog sys a).processes i = some p → inv' i p := by
  have hsame : ∀ i p, sys.processes i = some p → inv' i p := fun i p hp => hkeep i p (hsys i p hp)
  have hupdate : ∀ i q, inv' i q → ∀ j p,
      Function.update sys.processes i (some q) j = some p → inv' j p := by
    intro i q hq j p hp
    by_cases hj : j = i
    · subst hj
      rw [Function.update_self] at hp
      exact Option.some.inj hp ▸ hq
    · rw [Function.update_of_ne hj] at hp
      exact hsame j p hp
  cases a with
  | spawn i s =>
      simp only [step]
      split
      · exact hsame
      · exact hupdate i _ (hcreate i s rfl)
  | advance i b =>
      simp only [step]
      split
      · exact hsame
      · rename_i p hp
        exact hupdate i _ (hadvance i b p rfl hp (hsys i p hp))
  | environment e => exact hsame

/-- **Local invariants**: what holds of a process that is created and is kept by
every step of a process holds of every process there is. -/
theorem local_invariant (inv : P → Prop) (hcreate : ∀ s, inv (prog.create s))
    (hadvance : ∀ sys i a p, sys.processes i = some p → inv p → good sys (.advance i a) →
      inv (prog.advance a p sys.shared).1)
    {sys : System ι P C} (hsys : ∀ i p, sys.processes i = some p → inv p)
    {actions : List (Action ι S A E)} (hmeets : Meets prog good sys actions) :
    ∀ i p, (run prog sys actions).processes i = some p → inv p := by
  refine run_invariant (fun sys => ∀ i p, sys.processes i = some p → inv p)
    (fun sys a hinv hgood => ?_) hsys hmeets
  refine forall_step hinv (fun _ _ h => h) (fun _ s _ => hcreate s) ?_
  rintro i b p rfl hp hinvp
  exact hadvance sys i b p hp hinvp hgood

/-- **Interference freedom**: what every process knows of the shared state, if its own steps keep it
and those of the other processes and of the environment do not disturb it, it knows at all times. -/
theorem interference_free (inv : ι → P → C → Prop)
    (hcreate : ∀ sys i s, good sys (.spawn i s) → inv i (prog.create s) sys.shared)
    (hown : ∀ i a p c, inv i p c → inv i (prog.advance a p c).1 (prog.advance a p c).2)
    (hother : ∀ i j a p q c, i ≠ j → inv i p c → inv j q c → inv i p (prog.advance a q c).2)
    (henvironment : ∀ sys i p e, good sys (.environment e) → inv i p sys.shared →
      inv i p (prog.environment e sys.shared))
    {sys : System ι P C} (hsys : ∀ i p, sys.processes i = some p → inv i p sys.shared)
    {actions : List (Action ι S A E)} (hmeets : Meets prog good sys actions) :
    ∀ i p, (run prog sys actions).processes i = some p →
      inv i p (run prog sys actions).shared := by
  refine run_invariant (fun sys => ∀ i p, sys.processes i = some p → inv i p sys.shared)
    (fun sys a hinv hgood => ?_) hsys hmeets
  cases a with
  | spawn j s =>
      have hshared : (step prog sys (.spawn j s)).shared = sys.shared := by
        simp only [step]
        split <;> rfl
      rw [hshared]
      refine forall_step hinv (fun _ _ h => h) ?_ ?_
      · rintro i s' ⟨⟩
        exact hcreate sys j s hgood
      · rintro i b p ⟨⟩
  | environment e => exact fun i p hp => henvironment sys i p e hgood (hinv i p hp)
  | advance j b =>
      cases hq : sys.processes j with
      | none =>
          simp only [step, hq]
          exact hinv
      | some q =>
          have hqinv := hinv j q hq
          intro i p hp
          rw [shared_step_advance prog hq]
          by_cases hij : i = j
          · subst hij
            rw [step_advance prog hq] at hp
            cases hp
            exact hown i b q sys.shared hqinv
          · have hne : (Action.advance j b : Action ι S A E).process ≠ some i :=
              fun h => hij (Option.some.inj h).symm
            rw [step_of_other prog hne] at hp
            exact hother i j b p q sys.shared hij (hinv i p hp) hqinv

/-- **Rely and guarantee**: every step of a process, and the environment, keeps an invariant of the
shared state, and changes the shared state only in a way that spoils no knowledge.  Then the
invariant holds at all times, and so does what every process knows. -/
theorem rely_guarantee (rely : C → C → Prop) (inv : C → Prop) (knows : P → C → Prop)
    (hstable : ∀ p c c', rely c c' → knows p c → knows p c')
    (hcreate : ∀ s c, inv c → knows (prog.create s) c)
    (hadvance : ∀ sys i a p, sys.processes i = some p → good sys (.advance i a) →
      inv sys.shared → knows p sys.shared →
        inv (prog.advance a p sys.shared).2 ∧ rely sys.shared (prog.advance a p sys.shared).2 ∧
          knows (prog.advance a p sys.shared).1 (prog.advance a p sys.shared).2)
    (henvironment : ∀ sys e, good sys (.environment e) → inv sys.shared →
      inv (prog.environment e sys.shared) ∧ rely sys.shared (prog.environment e sys.shared))
    {sys : System ι P C} (hinv : inv sys.shared)
    (hsys : ∀ i p, sys.processes i = some p → knows p sys.shared)
    {actions : List (Action ι S A E)} (hmeets : Meets prog good sys actions) :
    inv (run prog sys actions).shared ∧
      ∀ i p, (run prog sys actions).processes i = some p →
        knows p (run prog sys actions).shared := by
  refine run_invariant
    (fun sys => inv sys.shared ∧ ∀ i p, sys.processes i = some p → knows p sys.shared)
    (fun sys a h hgood => ?_) ⟨hinv, hsys⟩ hmeets
  obtain ⟨hinv, hknows⟩ := h
  cases a with
  | spawn j s =>
      have hshared : (step prog sys (.spawn j s)).shared = sys.shared := by
        simp only [step]
        split <;> rfl
      rw [hshared]
      refine ⟨hinv, forall_step hknows (fun _ _ h => h) ?_ ?_⟩
      · rintro i s' ⟨⟩
        exact hcreate s sys.shared hinv
      · rintro i b p ⟨⟩
  | environment e =>
      obtain ⟨hinv', hrely⟩ := henvironment sys e hgood hinv
      exact ⟨hinv', fun i p hp => hstable p _ _ hrely (hknows i p hp)⟩
  | advance j b =>
      cases hq : sys.processes j with
      | none =>
          simp only [step, hq]
          exact ⟨hinv, hknows⟩
      | some q =>
          obtain ⟨hinv', hrely, hq'⟩ := hadvance sys j b q hq hgood hinv (hknows j q hq)
          rw [shared_step_advance prog hq]
          refine ⟨hinv', forall_step hknows (fun i p h => hstable p _ _ hrely h) ?_ ?_⟩
          · rintro i s ⟨⟩
          · rintro i a p ⟨⟩ hp _
            cases hq.symm.trans hp
            exact hq'

end Interleaving
end IntegrityShield
