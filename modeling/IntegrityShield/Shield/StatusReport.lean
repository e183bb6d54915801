/-
# Reporting a denial

`updateRSPStatus` of `shield/pkg/shield/checkUtils.go` adds a denial to the status of the
profile that caused it: it gets the stored profile, changes its status and sends it back.
The API server refuses an update of an object that has changed since it was got, and
`Handler.Report` only logs that: there is no second try.

So a denial is lost as soon as two calls overlap.  What is stored counts the calls whose
update was taken (`Counted`), and `denyCount_run_iff` says when these are all of them:
when no update was stored between the get and the update of any call.
-/

import IntegrityShield.Apis.ProfileStatus
import IntegrityShield.Base.Interleaving
import Mathlib.Data.Fintype.Card

namespace IntegrityShield
namespace Shield

open Common Apis Interleaving

/-- The stored profile: its status, and the version that every update raises. -/
structure StoredProfile where
  resourceVersion : ℕ := 0
  status : ResourceSigningProfileStatus := {}

/-- The arguments of a call, and the time that it writes down. -/
structure StatusCall where
  reqc : ReqContext := {}
  errMsg : String := ""
  timestamp : String := ""

/-- How far a call has come. -/
inductive StatusPhase where
  | called
  | got (resourceVersion : ℕ) (rspNew : ResourceSigningProfileStatus)
  | returned (stored : Bool)
  | crashed (fault : Fault)
deriving DecidableEq

/-- A call of `updateRSPStatus` on the profile. -/
structure StatusUpdate where
  call : StatusCall
  phase : StatusPhase := .called

/-- The steps of `updateRSPStatus`: the get, with the change of the status, and the update,
which returns an error if the stored version is another one. -/
def StatusUpdate.advance (p : StatusUpdate) (rsp : StoredProfile) : StatusUpdate × StoredProfile :=
  match p.phase with
  | .called =>
      match rsp.status.updateStatus (newRequestFromReqContext p.call.reqc) p.call.errMsg
          p.call.timestamp with
      | .ok rspNew => ({ p with phase := .got rsp.resourceVersion rspNew }, rsp)
      | .error fault => ({ p with phase := .crashed fault }, rsp)
  | .got resourceVersion rspNew =>
      if rsp.resourceVersion = resourceVersion then
        ({ p with phase := .returned true },
          { resourceVersion := rsp.resourceVersion + 1, status := rspNew })
      else ({ p with phase := .returned false }, rsp)
  | .returned _ => (p, rsp)
  | .crashed _ => (p, rsp)

/-- The calls as processes that share the stored profile. -/
def statusUpdates : Program StatusCall Unit Empty StatusUpdate StoredProfile where
  create call := { call := call }
  advance _ p rsp := p.advance rsp
  environment event _ := event.elim

variable {ι : Type} [DecidableEq ι]

/-- Some calls on a stored profile, none of which has taken a step. -/
def allCalled (rsp : StoredProfile) (calls : ι → StatusCall) :
    System ι StatusUpdate StoredProfile where
  shared := rsp
  processes i := some { call := calls i }

/-- The call is over. -/
def StatusPhase.Over : StatusPhase → Prop
  | .called => False
  | .got _ _ => False
  | .returned _ => True
  | .crashed _ => True

/-- The call is over and its denial was not stored. -/
def StatusPhase.Lost : StatusPhase → Prop
  | .called => False
  | .got _ _ => False
  | .returned stored => stored = false
  | .crashed _ => True

/-- Every call is over. -/
def Complete (sys : System ι StatusUpdate StoredProfile) : Prop :=
  ∀ i p, sys.processes i = some p → p.phase.Over

/-- What a step of a call needs: a summary without null entries for the get, and for the
update that nothing was stored since the get. -/
def StatusPhase.Undisturbed (rsp : StoredProfile) : StatusPhase → Prop
  | .called => none ∉ rsp.status.summary
  | .got resourceVersion _ => rsp.resourceVersion = resourceVersion
  | .returned _ => True
  | .crashed _ => True

/-- The condition on the actions of a run. -/
def Undisturbed (sys : System ι StatusUpdate StoredProfile)
    (action : Action ι StatusCall Unit Empty) : Prop :=
  ∀ i p, action = .advance i () → sys.processes i = some p → p.phase.Undisturbed sys.shared

/-! ## One step of a call -/

/-- What a step of a call does. -/
theorem StatusUpdate.advance_cases (p : StatusUpdate) (rsp : StoredProfile) :
    (∃ rspNew, p.phase = .called ∧ none ∉ rsp.status.summary ∧
      rspNew.denyCount = rsp.status.denyCount + 1 ∧
      p.advance rsp = ({ p with phase := .got rsp.resourceVersion rspNew }, rsp)) ∨
    (∃ fault, p.phase = .called ∧ none ∈ rsp.status.summary ∧
      p.advance rsp = ({ p with phase := .crashed fault }, rsp)) ∨
    (∃ rspNew, p.phase = .got rsp.resourceVersion rspNew ∧
      p.advance rsp = ({ p with phase := .returned true },
        { resourceVersion := rsp.resourceVersion + 1, status := rspNew })) ∨
    (∃ resourceVersion rspNew, p.phase = .got resourceVersion rspNew ∧
      rsp.resourceVersion ≠ resourceVersion ∧
      p.advance rsp = ({ p with phase := .returned false }, rsp)) ∨
    (p.phase.Over ∧ p.advance rsp = (p, rsp)) := by
  cases hphase : p.phase with
  | called =>
      by_cases hnull : none ∈ rsp.status.summary
      · obtain ⟨fault, hfault⟩ := ResourceSigningProfileStatus.updateStatus_of_null hnull
          (newRequestFromReqContext p.call.reqc) p.call.errMsg p.call.timestamp
        exact .inr (.inl ⟨fault, rfl, hnull, by simp only [StatusUpdate.advance, hphase, hfault]⟩)
      · obtain ⟨rspNew, hnew⟩ := ResourceSigningProfileStatus.updateStatus_of_not_null hnull
          (newRequestFromReqContext p.call.reqc) p.call.errMsg p.call.timestamp
        exact .inl ⟨rspNew, rfl, hnull,
          ResourceSigningProfileStatus.denyCount_updateStatus hnew,
          by simp only [StatusUpdate.advance, hphase, hnew]⟩
  | got resourceVersion rspNew =>
      by_cases hversion : rsp.resourceVersion = resourceVersion
      · subst hversion
        exact .inr (.inr (.inl ⟨rspNew, rfl, by simp only [StatusUpdate.advance, hphase, if_true]⟩))
      · exact .inr (.inr (.inr (.inl ⟨resourceVersion, rspNew, rfl, hversion,
          by simp only [StatusUpdate.advance, hphase, if_neg hversion]⟩)))
  | returned stored =>
      exact .inr (.inr (.inr (.inr ⟨trivial, by simp only [StatusUpdate.advance, hphase]⟩)))
  | crashed fault =>
      exact .inr (.inr (.inr (.inr ⟨trivial, by simp only [StatusUpdate.advance, hphase]⟩)))

theorem StatusPhase.Over.undisturbed {phase : StatusPhase} (h : phase.Over) (rsp : StoredProfile) :
    phase.Undisturbed rsp := by
  cases phase with
  | called => exact h.elim
  | got resourceVersion rspNew => exact h.elim
  | returned stored => trivial
  | crashed fault => trivial

/-- A call loses its denial in a step exactly if the step is disturbed. -/
theorem StatusUpdate.advance_lost_iff (p : StatusUpdate) (rsp : StoredProfile) :
    (p.advance rsp).1.phase.Lost ↔ p.phase.Lost ∨ ¬p.phase.Undisturbed rsp := by
  rcases p.advance_cases rsp with ⟨rspNew, hphase, hnull, _, h⟩ | ⟨fault, hphase, hnull, h⟩ |
    ⟨rspNew, hphase, h⟩ | ⟨resourceVersion, rspNew, hphase, hversion, h⟩ | ⟨hover, h⟩
  · simp [h, hphase, StatusPhase.Lost, StatusPhase.Undisturbed, hnull]
  · simp [h, hphase, StatusPhase.Lost, StatusPhase.Undisturbed, hnull]
  · simp [h, hphase, StatusPhase.Lost, StatusPhase.Undisturbed]
  · simp [h, hphase, StatusPhase.Lost, StatusPhase.Undisturbed, hversion]
  · simp [h, hover.undisturbed rsp]

theorem StatusUpdate.advance_not_lost {p : StatusUpdate} (hp : ¬p.phase.Lost) {rsp : StoredProfile}
    (hrsp : p.phase.Undisturbed rsp) : ¬(p.advance rsp).1.phase.Lost := by
  rw [p.advance_lost_iff rsp, not_or, not_not]
  exact ⟨hp, hrsp⟩

/-- What a call that got the profile holds: a status with one denial more, as long as the
profile has not changed. -/
def StatusPhase.Pending (rsp : StoredProfile) (phase : StatusPhase) : Prop :=
  ∀ resourceVersion rspNew, phase = .got resourceVersion rspNew →
    resourceVersion ≤ rsp.resourceVersion ∧
      (resourceVersion = rsp.resourceVersion → rspNew.denyCount = rsp.status.denyCount + 1)

/-- The other calls: a new version is none that they got. -/
theorem StatusPhase.Pending.advance {phase : StatusPhase} {rsp : StoredProfile}
    (h : phase.Pending rsp) (p : StatusUpdate) : phase.Pending (p.advance rsp).2 := by
  rcases p.advance_cases rsp with ⟨_, _, _, _, ha⟩ | ⟨_, _, _, ha⟩ | ⟨rspNew, _, ha⟩ |
    ⟨_, _, _, _, ha⟩ | ⟨_, ha⟩
  · rw [ha]
    exact h
  · rw [ha]
    exact h
  · rw [ha]
    intro resourceVersion status hphase
    have hle := (h resourceVersion status hphase).1
    exact ⟨Nat.le_succ_of_le hle, fun heq => absurd heq (Nat.ne_of_lt (Nat.lt_succ_of_le hle))⟩
  · rw [ha]
    exact h
  · rw [ha]
    exact h

/-- The call itself. -/
theorem StatusUpdate.advance_pending {p : StatusUpdate} {rsp : StoredProfile}
    (h : p.phase.Pending rsp) : (p.advance rsp).1.phase.Pending (p.advance rsp).2 := by
  rcases p.advance_cases rsp with ⟨rspNew, _, _, hcount, ha⟩ | ⟨_, _, _, ha⟩ | ⟨_, _, ha⟩ |
    ⟨_, _, _, _, ha⟩ | ⟨_, ha⟩
  · rw [ha]
    intro resourceVersion status hphase
    obtain ⟨rfl, rfl⟩ := StatusPhase.got.inj hphase
    exact ⟨le_rfl, fun _ => hcount⟩
  · rw [ha]
    intro _ _ hphase
    cases hphase
  · rw [ha]
    intro _ _ hphase
    cases hphase
  · rw [ha]
    intro _ _ hphase
    cases hphase
  · rw [ha]
    exact h

/-- The stored count grows by one with an update that is stored. -/
theorem StatusUpdate.denyCount_advance {p : StatusUpdate} {rsp : StoredProfile}
    (h : p.phase.Pending rsp) (hphase : p.phase ≠ .returned true) :
    (p.advance rsp).2.status.denyCount = rsp.status.denyCount +
      if (p.advance rsp).1.phase = .returned true then 1 else 0 := by
  rcases p.advance_cases rsp with ⟨_, _, _, _, ha⟩ | ⟨_, _, _, ha⟩ | ⟨rspNew, hgot, ha⟩ |
    ⟨_, _, _, _, ha⟩ | ⟨_, ha⟩
  · simp [ha]
  · simp [ha]
  · simp [ha, (h _ _ hgot).2 rfl]
  · simp [ha]
  · simp [ha, hphase]

/-! ## Lost denials -/

/-- A denial that was lost stays lost. -/
theorem lost_run {sys : System ι StatusUpdate StoredProfile} {i : ι}
    (hlost : ∃ p, sys.processes i = some p ∧ p.phase.Lost)
    (actions : List (Action ι StatusCall Unit Empty)) :
    ∃ p, (run statusUpdates sys actions).processes i = some p ∧ p.phase.Lost := by
  induction actions generalizing sys with
  | nil => exact hlost
  | cons action rest ih =>
      refine ih ?_
      obtain ⟨p, hp, hphase⟩ := hlost
      cases action with
      | spawn j call =>
          refine ⟨p, ?_, hphase⟩
          by_cases hj : j = i
          · subst hj
            simp only [step, hp]
          · exact (step_of_other statusUpdates (by simp [Action.process, hj]) sys).trans hp
      | advance j input =>
          by_cases hj : j = i
          · subst hj
            exact ⟨_, step_advance statusUpdates hp input,
              (p.advance_lost_iff sys.shared).2 (.inl hphase)⟩
          · exact ⟨p, (step_of_other statusUpdates (by simp [Action.process, hj]) sys).trans hp,
              hphase⟩
      | environment event => exact event.elim

/-- **A run loses no denial exactly if none of its steps is disturbed.** -/
theorem meets_undisturbed_iff {sys : System ι StatusUpdate StoredProfile}
    (hsys : ∀ i p, sys.processes i = some p → ¬p.phase.Lost)
    (actions : List (Action ι StatusCall Unit Empty)) :
    Meets statusUpdates Undisturbed sys actions ↔
      ∀ i p, (run statusUpdates sys actions).processes i = some p → ¬p.phase.Lost := by
  constructor
  · refine local_invariant (fun p : StatusUpdate => ¬p.phase.Lost) (fun _ => id) ?_ hsys
    exact fun sys i _ p hp hkept hgood => StatusUpdate.advance_not_lost hkept (hgood i p rfl hp)
  · intro hend
    induction actions generalizing sys with
    | nil => trivial
    | cons action rest ih =>
        have hgood : Undisturbed sys action := by
          rintro i p rfl hp
          by_contra hdisturbed
          obtain ⟨q, hq, hlost⟩ := lost_run ⟨_, step_advance statusUpdates hp (),
            (p.advance_lost_iff sys.shared).2 (.inr hdisturbed)⟩ rest
          exact hend i q hq hlost
        refine ⟨hgood, ih ?_ hend⟩
        refine forall_step hsys (fun _ _ h => h) (fun _ _ _ h => h) ?_
        rintro i b p rfl hp hkept
        exact StatusUpdate.advance_not_lost hkept (hgood i p rfl hp)

/-! ## What is stored -/

variable [Fintype ι]

/-- The calls whose update was stored. -/
def storedCalls (sys : System ι StatusUpdate StoredProfile) : Finset ι :=
  Finset.univ.filter fun i => ∃ p ∈ sys.processes i, p.phase = .returned true

omit [DecidableEq ι] in
theorem mem_storedCalls {sys : System ι StatusUpdate StoredProfile} {i : ι} :
    i ∈ storedCalls sys ↔ ∃ p, sys.processes i = some p ∧ p.phase = .returned true := by
  simp [storedCalls]

/-- A call that returns is the only one that a step adds. -/
theorem storedCalls_advance {sys : System ι StatusUpdate StoredProfile} {i : ι} {p : StatusUpdate}
    (hp : sys.processes i = some p) (hphase : p.phase ≠ .returned true) (input : Unit) :
    storedCalls (step statusUpdates sys (.advance i input)) =
      if (p.advance sys.shared).1.phase = .returned true then insert i (storedCalls sys)
      else storedCalls sys := by
  have hothers : ∀ j ≠ i, (step statusUpdates sys (.advance i input)).processes j =
      sys.processes j := fun j hj =>
    step_of_other statusUpdates (by simp [Action.process, Ne.symm hj]) sys
  ext j
  by_cases hj : j = i
  · subst hj
    rw [mem_storedCalls, step_advance statusUpdates hp]
    split
    · rename_i hreturned
      exact ⟨fun _ => Finset.mem_insert_self .., fun _ => ⟨_, rfl, hreturned⟩⟩
    · rename_i hnot
      rw [mem_storedCalls, hp]
      constructor
      · rintro ⟨q, hq, hreturned⟩
        exact absurd (Option.some.inj hq ▸ hreturned) hnot
      · rintro ⟨q, hq, hreturned⟩
        exact absurd (Option.some.inj hq ▸ hreturned) hphase
  · rw [mem_storedCalls, hothers j hj, ← mem_storedCalls]
    split
    · rw [Finset.mem_insert, or_iff_right hj]
    · rfl

/-- The stored count is that of the updates that were stored. -/
structure Counted (initial : ℤ) (sys : System ι StatusUpdate StoredProfile) : Prop where
  created : ∀ i, ∃ p, sys.processes i = some p
  count : sys.shared.status.denyCount = initial + (storedCalls sys).card
  pending : ∀ i p, sys.processes i = some p → p.phase.Pending sys.shared

omit [DecidableEq ι] in
theorem counted_allCalled (rsp : StoredProfile) (calls : ι → StatusCall) :
    Counted rsp.status.denyCount (allCalled rsp calls) where
  created i := ⟨_, rfl⟩
  count := by
    have hnone : storedCalls (allCalled rsp calls) = ∅ := by
      refine Finset.eq_empty_of_forall_notMem fun i hi => ?_
      obtain ⟨p, hp, hphase⟩ := mem_storedCalls.1 hi
      obtain rfl := Option.some.inj hp
      cases hphase
    rw [hnone, Finset.card_empty, Nat.cast_zero, add_zero]
    rfl
  pending i p hp resourceVersion rspNew hphase := by
    obtain rfl := Option.some.inj hp
    cases hphase

/-- A step of a call keeps the count. -/
theorem Counted.advance {initial : ℤ} {sys : System ι StatusUpdate StoredProfile}
    (h : Counted initial sys) (i : ι) (input : Unit) :
    Counted initial (step statusUpdates sys (.advance i input)) := by
  obtain ⟨p, hp⟩ := h.created i
  have hshared : (step statusUpdates sys (.advance i input)).shared = (p.advance sys.shared).2 := by
    simp only [step, hp]
    rfl
  refine ⟨fun j => ?_, ?_, ?_⟩
  · by_cases hj : j = i
    · subst hj
      exact ⟨_, step_advance statusUpdates hp input⟩
    · obtain ⟨q, hq⟩ := h.created j
      exact ⟨q, (step_of_other statusUpdates (by simp [Action.process, Ne.symm hj]) sys).trans hq⟩
  · rw [hshared]
    by_cases hphase : p.phase = .returned true
    · have hidle : p.advance sys.shared = (p, sys.shared) := by
        simp only [StatusUpdate.advance, hphase]
      rw [← hshared, step_idle statusUpdates hp hidle]
      exact h.count
    · rw [StatusUpdate.denyCount_advance (h.pending i p hp) hphase, storedCalls_advance hp hphase,
        h.count]
      split
      · have hfresh : i ∉ storedCalls sys := by
          rw [mem_storedCalls, hp]
          rintro ⟨q, hq, hreturned⟩
          exact hphase (Option.some.inj hq ▸ hreturned)
        rw [Finset.card_insert_of_notMem hfresh]
        push_cast
        ring
      · rw [add_zero]
  · rw [hshared]
    refine forall_step h.pending (fun _ _ hq => hq.advance p) (fun _ _ ha => by cases ha) ?_
    rintro j b q ha hq hpending
    obtain ⟨rfl, _⟩ := Action.advance.inj ha
    obtain rfl := Option.some.inj (hp.symm.trans hq)
    exact StatusUpdate.advance_pending hpending

theorem Counted.step {initial : ℤ} {sys : System ι StatusUpdate StoredProfile}
    (h : Counted initial sys) (action : Action ι StatusCall Unit Empty) :
    Counted initial (step statusUpdates sys action) := by
  cases action with
  | spawn i call =>
      obtain ⟨p, hp⟩ := h.created i
      have hsame : Interleaving.step statusUpdates sys (.spawn i call) = sys := by
        simp only [Interleaving.step, hp]
      rw [hsame]
      exact h
  | advance i input => exact h.advance i input
  | environment event => exact event.elim

/-- **What is stored counts the updates that were stored**, in every run. -/
theorem counted_run (rsp : StoredProfile) (calls : ι → StatusCall)
    (actions : List (Action ι StatusCall Unit Empty)) :
    Counted rsp.status.denyCount (run statusUpdates (allCalled rsp calls) actions) :=
  run_invariant (Counted rsp.status.denyCount) (fun _ action h _ => h.step action)
    (counted_allCalled rsp calls) (meets_of_forall (fun _ _ => trivial) _ actions)

/-- **No denial is lost exactly if the calls do not overlap**: when all of them are over, the
stored count has grown by their number if and only if every update found the version that
its call had got, and every get a summary without null entries. -/
theorem denyCount_run_iff (rsp : StoredProfile) (calls : ι → StatusCall)
    (actions : List (Action ι StatusCall Unit Empty))
    (hcomplete : Complete (run statusUpdates (allCalled rsp calls) actions)) :
    (run statusUpdates (allCalled rsp calls) actions).shared.status.denyCount =
        rsp.status.denyCount + Fintype.card ι ↔
      Meets statusUpdates Undisturbed (allCalled rsp calls) actions := by
  have hstart : ∀ i p, (allCalled rsp calls).processes i = some p → ¬p.phase.Lost := by
    intro i p hp
    obtain rfl := Option.some.inj hp
    exact id
  have hcounted := counted_run rsp calls actions
  rw [meets_undisturbed_iff hstart, hcounted.count, add_right_inj, Nat.cast_inj,
    Finset.card_eq_iff_eq_univ, Finset.eq_univ_iff_forall]
  constructor
  · intro hall i p hp hlost
    obtain ⟨q, hq, hphase⟩ := mem_storedCalls.1 (hall i)
    obtain rfl := Option.some.inj (hp.symm.trans hq)
    rw [hphase] at hlost
    cases hlost
  · intro hkept i
    obtain ⟨p, hp⟩ := hcounted.created i
    have hover := hcomplete i p hp
    have hnot := hkept i p hp
    refine mem_storedCalls.2 ⟨p, hp, ?_⟩
    cases hphase : p.phase with
    | called => exact absurd hover (by rw [hphase]; exact id)
    | got resourceVersion rspNew => exact absurd hover (by rw [hphase]; exact id)
    | returned stored =>
        rw [hphase] at hnot
        exact congrArg _ (Bool.eq_true_of_not_eq_false hnot)
    | crashed fault => exact absurd trivial (by rw [hphase] at hnot; exact hnot)

/-- Two calls, one after the other. -/
theorem denyCount_run_sequential :
    (run statusUpdates (allCalled {} fun _ : Bool => {}) [.advance true (), .advance true (),
      .advance false (), .advance false ()]).shared.status.denyCount = 2 := by
  have hend : ∀ i, ((run statusUpdates (allCalled {} fun _ : Bool => {}) [.advance true (),
      .advance true (), .advance false (), .advance false ()]).processes i).map
        StatusUpdate.phase = some (.returned true) := by
    decide +kernel
  refine (denyCount_run_iff {} (fun _ : Bool => {}) _ fun i p hp => ?_).2 ?_
  · have hphase := hend i
    rw [hp] at hphase
    rw [Option.some.inj hphase]
    trivial
  · refine (meets_undisturbed_iff (fun i p hp => ?_) _).2 fun i p hp => ?_
    · obtain rfl := Option.some.inj hp
      exact id
    · have hphase := hend i
      rw [hp] at hphase
      rw [Option.some.inj hphase]
      intro hlost
      cases hlost

/-- Two calls that overlap: both get the profile before the first update, the second update
is refused, and one denial is missing. -/
theorem denyCount_run_overlapping :
    Complete (run statusUpdates (allCalled {} fun _ : Bool => {}) [.advance true (),
      .advance false (), .advance true (), .advance false ()]) ∧
    (run statusUpdates (allCalled {} fun _ : Bool => {}) [.advance true (), .advance false (),
      .advance true (), .advance false ()]).shared.status.denyCount ≠
        ({} : StoredProfile).status.denyCount + Fintype.card Bool := by
  have hend : ∀ i, ((run statusUpdates (allCalled {} fun _ : Bool => {}) [.advance true (),
      .advance false (), .advance true (), .advance false ()]).processes i).map
        StatusUpdate.phase = some (.returned i) := by
    decide +kernel
  refine ⟨fun i p hp => ?_, by decide +kernel⟩
  have hphase := hend i
  rw [hp] at hphase
  rw [Option.some.inj hphase]
  trivial

end Shield
end IntegrityShield
