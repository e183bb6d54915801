/-
# Stored profiles and the cache

When a stored profile is in force.  A handler clears the cached lists while it answers
a request for a profile, so before the profile is stored.  Between the two another
handler may list the profiles, without the new one, and cache the list for its whole
lifetime; and the cache is not cleared at all for a request of the shield's own users.
So a handler that starts after the profile has been stored may not see it.

`stored_profile_effective` holds in the runs in which every profile is stored while no
list without it is cached or about to be, and `stored_profile_missed` says that this is
needed.
-/

import IntegrityShield.Shield.Admission

namespace IntegrityShield
namespace Shield

open Common Apis Interleaving

section Invariant

variable [Outside]

/-- A profile is in every list that is cached or that a handler is about to cache. -/
def Covers (q : ResourceSigningProfile) (sys : AdmissionServer) : Prop :=
  (∀ list, sys.shared.cache.rsp = some list → q ∈ list) ∧
  ∀ i a, sys.processes i = some a → ∀ list, a.handler.pending = some list → q ∈ list

/-- The condition on the actions: when a profile is stored, no list without it is
cached or about to be. -/
def StoresCovered (sys : AdmissionServer) (action : AdmissionAction) : Prop :=
  ∀ i a, action = .advance i .complete → sys.processes i = some a → a.Stores →
    Covers a.request.object sys

/-- **A stored profile stays covered**, and so does one that is being stored. -/
theorem Covers.step {q : ResourceSigningProfile} {sys : AdmissionServer} (h : Covers q sys)
    {action : AdmissionAction}
    (hq : q ∈ sys.shared.profiles ∨ ∃ i, action = .advance i .complete) :
    Covers q (step admissions sys action) := by
  have hprocesses : ∀ i a, (Interleaving.step admissions sys action).processes i = some a →
      ∀ list, a.handler.pending = some list → q ∈ list := by
    refine forall_step h.2 (fun _ _ hi => hi) (fun i request _ list hlist => ?_) ?_
    · cases hlist
    · rintro i b a rfl ha hpending list hlist
      rcases Admission.advance_pending hlist with hold | ⟨rfl, rfl⟩
      · exact hpending list hold
      · rcases hq with hq | ⟨j, hj⟩
        · exact hq
        · cases hj
  refine ⟨fun list hlist => ?_, hprocesses⟩
  rcases step_shared admissions sys action with hsame | ⟨i, b, a, _, ha, hshared⟩ |
    ⟨event, _, hshared⟩
  · rw [hsame] at hlist
    exact h.1 list hlist
  · rw [hshared] at hlist
    rcases Admission.advance_cached hlist with hold | hpending
    · exact h.1 list hold
    · exact h.2 i a ha list hpending
  · rw [hshared] at hlist
    exact h.1 list (ClusterState.apply_cached hlist)

/-- A profile that is stored after an action was so before, or has been stored by
it. -/
theorem stored_step {q : ResourceSigningProfile} {sys : AdmissionServer} {action : AdmissionAction}
    (h : q ∈ (step admissions sys action).shared.profiles) :
    q ∈ sys.shared.profiles ∨ ∃ i a, action = .advance i .complete ∧ sys.processes i = some a ∧
      a.Stores ∧ q = a.request.object := by
  rcases step_shared admissions sys action with hsame | ⟨i, b, a, hact, ha, hshared⟩ |
    ⟨event, _, hshared⟩
  · rw [hsame] at h
    exact .inl h
  · rw [hshared] at h
    refine (Admission.advance_stored h).imp_right ?_
    rintro ⟨rfl, hstores, hq⟩
    exact ⟨i, a, hact, ha, hstores, hq⟩
  · rw [hshared] at h
    exact .inl (ClusterState.apply_stored h)

/-- In every run that meets the condition all stored profiles are covered. -/
theorem covers_of_stored {state : ClusterState} (hcold : state.cache.rsp = none)
    {actions : List AdmissionAction}
    (h : Meets admissions StoresCovered { shared := state } actions) :
    ∀ q ∈ (run admissions { shared := state } actions).shared.profiles,
      Covers q (run admissions { shared := state } actions) := by
  refine run_invariant (fun sys => ∀ q ∈ sys.shared.profiles, Covers q sys) ?_ ?_ h
  · intro sys action hinv hgood q hq
    rcases stored_step hq with hold | ⟨i, a, hact, ha, hstores, rfl⟩
    · exact (hinv q hold).step (.inl hold)
    · exact (hgood i a hact ha hstores).step (.inr ⟨i, hact⟩)
  · intro q _
    refine ⟨fun list hlist => ?_, fun i a ha => ?_⟩
    · cases hcold.symm.trans hlist
    · cases ha

/-- The profile is still stored after the action. -/
def StaysStored (q : ResourceSigningProfile) (sys : AdmissionServer) (action : AdmissionAction) :
    Prop :=
  q ∈ (step admissions sys action).shared.profiles

/-- The handlers of admissions that began after a profile had been stored see it, as
long as it stays stored. -/
theorem sees_of_stored {q : ResourceSigningProfile} {sys : AdmissionServer} (hcovers : Covers q sys)
    (hstored : q ∈ sys.shared.profiles) {actions : List AdmissionAction}
    (hmeets : Meets admissions (StaysStored q) sys actions) {i : ℕ}
    (hnew : sys.processes i = none) {a : Admission}
    (ha : (run admissions sys actions).processes i = some a) : a.handler.Sees q := by
  have hinv : q ∈ (run admissions sys actions).shared.profiles ∧
      Covers q (run admissions sys actions) ∧
      ∀ i a, (run admissions sys actions).processes i = some a →
        sys.processes i = none → a.handler.Sees q := by
    refine run_invariant (fun t => q ∈ t.shared.profiles ∧ Covers q t ∧
      ∀ i a, t.processes i = some a → sys.processes i = none → a.handler.Sees q) ?_ ?_ hmeets
    · rintro t action ⟨hq, hc, hsees⟩ hstays
      refine ⟨hstays, hc.step (.inl hq), ?_⟩
      refine forall_step hsees (fun _ _ h => h) (fun _ _ _ _ => trivial) ?_
      rintro j b a - hj hseen hfresh
      exact Admission.sees_advance (hseen hfresh) hq hc.1 (hc.2 j a hj)
    · refine ⟨hstored, hcovers, fun j a hj hfresh => ?_⟩
      cases hfresh.symm.trans hj
  exact hinv.2.2 i a ha hnew

/-- An action that neither stores nor deletes a profile. -/
def keepsProfiles : AdmissionAction → Bool
  | .advance _ .complete => false
  | .environment (.deleteProfile _ _) => false
  | _ => true

theorem step_profiles {sys : AdmissionServer} {action : AdmissionAction}
    (h : keepsProfiles action = true) :
    (step admissions sys action).shared.profiles = sys.shared.profiles := by
  rcases step_shared admissions sys action with hsame | ⟨i, b, a, rfl, _, hshared⟩ |
    ⟨event, rfl, hshared⟩
  · rw [hsame]
  · rw [hshared]
    refine Admission.advance_profiles ?_
    rintro rfl
    cases h
  · rw [hshared]
    cases event with
    | forget entry => rfl
    | deleteProfile ns name => cases h
    | setNamespaces namespaces => rfl

/-- A profile stays stored during such actions. -/
theorem staysStored_of_keeps {q : ResourceSigningProfile} {sys : AdmissionServer}
    (hstored : q ∈ sys.shared.profiles) {actions : List AdmissionAction}
    (h : ∀ action ∈ actions, keepsProfiles action = true) :
    Meets admissions (StaysStored q) sys actions := by
  induction actions generalizing sys with
  | nil => trivial
  | cons action rest ih =>
      obtain ⟨hfirst, hrest⟩ := List.forall_mem_cons.1 h
      have hstays : q ∈ (step admissions sys action).shared.profiles := by
        rw [step_profiles hfirst]
        exact hstored
      exact ⟨hstays, ih hstays hrest⟩

/-- Such actions meet the condition. -/
theorem storesCovered_of_keeps {actions : List AdmissionAction}
    (h : ∀ action ∈ actions, keepsProfiles action = true) (sys : AdmissionServer) :
    Meets admissions StoresCovered sys actions := by
  induction actions generalizing sys with
  | nil => trivial
  | cons action rest ih =>
      obtain ⟨hfirst, hrest⟩ := List.forall_mem_cons.1 h
      refine ⟨?_, ih hrest _⟩
      rintro i a rfl _ _
      cases hfirst

theorem step_complete {sys : AdmissionServer} {i : ℕ} {a : Admission}
    (ha : sys.processes i = some a) (hstores : a.Stores) :
    step admissions sys (.advance i .complete) =
      ⟨sys.shared.persist a.request.object,
        Function.update sys.processes i (some { a with progress := .completed })⟩ := by
  have hadvance : admissions.advance .complete a sys.shared = _ := hstores.advance
  simp only [step, ha, hadvance]

theorem stored_of_complete {sys : AdmissionServer} {i : ℕ} {a : Admission}
    (ha : sys.processes i = some a) (hstores : a.Stores) :
    a.request.object ∈ (step admissions sys (.advance i .complete)).shared.profiles := by
  rw [step_complete ha hstores]
  exact List.mem_append_right _ (List.mem_singleton_self _)

/-- **A stored profile is effective at once.**  In every run from an empty cache in
which a profile is stored only while no list without it is cached or about to be:
once a profile has been stored, and as long as it is not replaced or deleted, a
handler that starts afterwards gets from `GetRuleTable` a table that is built from a
profile list with that profile in it. -/
theorem stored_profile_effective (profiles : List ResourceSigningProfile)
    (namespaces : List Namespace) (before after : List AdmissionAction)
    (q : ResourceSigningProfile) (i : ℕ) (a : Admission)
    (hmeets : Meets admissions StoresCovered
      { shared := { profiles := profiles, namespaces := namespaces } } before)
    (hstored : q ∈ (run admissions
      { shared := { profiles := profiles, namespaces := namespaces } } before).shared.profiles)
    (hnew : (run admissions
      { shared := { profiles := profiles, namespaces := namespaces } } before).processes i = none)
    (hstays : Meets admissions (StaysStored q) (run admissions
      { shared := { profiles := profiles, namespaces := namespaces } } before) after)
    (ha : (run admissions { shared := { profiles := profiles, namespaces := namespaces } }
      (before ++ after)).processes i = some a)
    (hreturned : a.handler.phase = .returned) :
    q ∈ a.handler.data.rspList ∧ ∀ table, a.handler.data.ruleTable = some table →
      ∃ namespaces, table = newRuleTable a.handler.data.rspList namespaces
        a.handler.data.commonProfile a.handler.conf.namespace := by
  have hcovers := covers_of_stored rfl hmeets q hstored
  rw [run_append] at ha
  have hsees := sees_of_stored hcovers hstored hstays hnew ha
  rw [Process.Sees, hreturned] at hsees
  obtain ⟨hbuilt, hq⟩ := hsees
  rw [hbuilt.rspList]
  exact ⟨hq, fun table htable => hbuilt.rspList ▸ (hbuilt.table table htable).2⟩

end Invariant

/-- A shield whose own users are named. -/
def adminConf : ShieldConfig :=
  { shieldConf with
    iShieldServerUserName := "server"
    iShieldResourceCondition := some { operatorServiceAccount := "operator" } }

/-- An administrator creates the profile for all namespaces. -/
def adminCreates : Request where
  conf := adminConf
  reqc := {
    operation := "CREATE"
    kind := profileCustomResourceKind
    «namespace» := "shield"
    userName := "admin" }
  object := everywhereProfile

/-- The administrator creates a config map. -/
def adminConfigures : Request where
  conf := adminConf
  reqc := { operation := "CREATE", kind := "ConfigMap", userName := "admin" }

/-- An API server with the profile of `ops`. -/
def opsState : ClusterState where
  profiles := [opsProfile]

/-- A request arrives, and its handler takes some steps. -/
def requestSteps (i : ℕ) (request : Request) (steps : List AdmissionStep) :
    List AdmissionAction :=
  .spawn i request :: steps.map fun b => .advance i b

/-- The creation is checked with one call of `GetRuleTable` and allowed, and its
handler clears the cache. -/
def allowedCreation : List AdmissionAction :=
  requestSteps 0 adminCreates (List.replicate 9 .proceed ++ [.verdict true, .proceed, .proceed])

/-- A handler has returned from `GetRuleTable`. -/
def Phase.isReturned : Phase → Bool
  | .returned => true
  | _ => false

theorem Phase.eq_returned {phase : Phase} (h : phase.isReturned = true) : phase = .returned := by
  cases phase with
  | returned => rfl
  | _ => cases h

/-- An admission that is about to store its profile. -/
def Admission.storesNow (a : Admission) : Bool :=
  decide (a.progress = .answered true) && a.request.putsProfile

theorem Admission.storesNow_iff {a : Admission} : a.storesNow = true ↔ a.Stores := by
  rw [storesNow, Bool.and_eq_true, decide_eq_true_eq, Stores]

/-- A profile is covered if nothing is cached and the only handler there is has nothing
to cache. -/
theorem covers_of_alone {sys : AdmissionServer} (q : ResourceSigningProfile)
    (hcached : sys.shared.cache.rsp = none) {i : ℕ} (hothers : ∀ j ≠ i, sys.processes j = none)
    {a : Admission} (ha : sys.processes i = some a) (hpending : a.handler.pending = none) :
    Covers q sys := by
  refine ⟨fun list hlist => ?_, fun j b hb list hlist => ?_⟩
  · cases hcached.symm.trans hlist
  · by_cases hj : j = i
    · subst hj
      obtain rfl := Option.some.inj (ha.symm.trans hb)
      cases hpending.symm.trans hlist
    · cases (hothers j hj).symm.trans hb

theorem stored_profile_effective_created :
    letI := Outside.silent
    ∃ a b, (run admissions { shared := opsState } allowedCreation).processes 0 = some a ∧
      a.Stores ∧
      (run admissions { shared := opsState } (allowedCreation ++ [.advance 0 .complete] ++
        requestSteps 1 adminConfigures (List.replicate 9 .proceed))).processes 1 = some b ∧
      b.handler.phase = .returned ∧ a.request.object ∈ b.handler.data.rspList := by
  let _ := Outside.silent
  have hanswered : ((run admissions { shared := opsState } allowedCreation).processes 0).any
      (fun a => a.storesNow && a.handler.pending.isNone) = true := by
    decide +kernel
  have hcached : (run admissions { shared := opsState } allowedCreation).shared.cache.rsp.isNone =
      true := by
    decide +kernel
  have hnew : ((run admissions { shared := opsState }
      (allowedCreation ++ [.advance 0 .complete])).processes 1).isNone = true := by
    decide +kernel
  have hcalled : ((run admissions { shared := opsState }
      (allowedCreation ++ [.advance 0 .complete] ++
        requestSteps 1 adminConfigures (List.replicate 9 .proceed))).processes 1).any
      (fun b => b.handler.phase.isReturned) = true := by
    decide +kernel
  have hkeeps : allowedCreation.all keepsProfiles = true := rfl
  have hlate : (requestSteps 1 adminConfigures (List.replicate 9 .proceed)).all keepsProfiles =
      true := rfl
  have hfirst : allowedCreation.all (fun action => action.process == some 0) = true := rfl
  -- the rest holds of every such run
  generalize requestSteps 1 adminConfigures (List.replicate 9 .proceed) = after at *
  generalize allowedCreation = before at *
  obtain ⟨a, ha, hall⟩ := (Option.any_eq_true ..).1 hanswered
  rw [Bool.and_eq_true, Admission.storesNow_iff, Option.isNone_iff_eq_none] at hall
  obtain ⟨b, hb, hreturned⟩ := (Option.any_eq_true ..).1 hcalled
  have hothers : ∀ j ≠ 0,
      (run admissions { shared := opsState } before).processes j = none := by
    intro j hj
    refine run_of_others admissions (fun action haction => ?_) _
    rw [beq_iff_eq.1 (List.all_eq_true.1 hfirst action haction)]
    exact fun hsome => hj (Option.some.inj hsome).symm
  have hstored : a.request.object ∈ (run admissions { shared := opsState }
      (before ++ [.advance 0 .complete])).shared.profiles := by
    rw [run_append]
    exact stored_of_complete ha hall.1
  have hmeets : Meets admissions StoresCovered { shared := opsState }
      (before ++ [.advance 0 .complete]) := by
    refine meets_append.2 ⟨storesCovered_of_keeps (List.all_eq_true.1 hkeeps) _, ?_, trivial⟩
    rintro i a' hact ha' _
    cases hact
    obtain rfl := Option.some.inj (ha.symm.trans ha')
    exact covers_of_alone _ (Option.isNone_iff_eq_none.1 hcached) hothers ha hall.2
  have hstays := staysStored_of_keeps hstored (List.all_eq_true.1 hlate)
  exact ⟨a, b, ha, hall.1, hb, Phase.eq_returned hreturned,
    (stored_profile_effective [opsProfile] [] _ _ a.request.object 1 b hmeets hstored
      (Option.isNone_iff_eq_none.1 hnew) hstays hb (Phase.eq_returned hreturned)).1⟩

section Converse

variable [Outside]

/-- A new request is checked as far as the return of `GetRuleTable`, while the
namespaces are neither cached nor stored. -/
def lateCall (j : ℕ) (request : Request) : List AdmissionAction :=
  [.environment (.forget .ns), .environment (.setNamespaces []), .spawn j request] ++
    (List.replicate 7 AdmissionStep.proceed).map fun b => .advance j b

/-- **A cached list is all that a new handler sees.** -/
theorem lateCall_rspList {sys : AdmissionServer} {list : List ResourceSigningProfile}
    (hcached : sys.shared.cache.rsp = some list) {j : ℕ} (hj : sys.processes j = none)
    (request : Request) :
    ∃ a, (run admissions sys (lateCall j request)).processes j = some a ∧
      a.handler.phase = .returned ∧ a.handler.data.rspList = list := by
  obtain ⟨⟨⟨rsp, ns⟩, profiles, namespaces⟩, processes⟩ := sys
  obtain rfl : rsp = some list := hcached
  have hspawned : run admissions ⟨⟨⟨some list, ns⟩, profiles, namespaces⟩, processes⟩
      [.environment (.forget .ns), .environment (.setNamespaces []), .spawn j request] =
      ⟨⟨⟨some list, none⟩, profiles, []⟩,
        Function.update processes j (some (admissions.create request))⟩ := by
    have hnone : processes j = none := hj
    simp only [run, List.foldl_cons, List.foldl_nil, step, hnone]
    rfl
  rw [lateCall, run_append, hspawned]
  have hrun := run_alone admissions
    (show (⟨⟨⟨some list, none⟩, profiles, []⟩, Function.update processes j
        (some (admissions.create request))⟩ : AdmissionServer).processes j =
      some (admissions.create request) from Function.update_self ..)
    (List.replicate 7 .proceed)
  obtain ⟨p, cache, hp, hphase, hlist⟩ := Process.iterate_lateCall request.conf profiles list
  refine ⟨⟨request, p, .checking⟩, hrun.trans (congrArg some ?_), hphase, hlist⟩
  have hfold := Admission.foldl_proceed 7 request { conf := request.conf }
    ⟨⟨some list, none⟩, profiles, []⟩
  rw [show ClusterState.answers ⟨⟨some list, none⟩, profiles, []⟩ =
    ⟨.ok profiles, .ok []⟩ from rfl, hp] at hfold
  exact congrArg Prod.fst hfold

/-- The handler of a list that is about to be cached is still checking its request. -/
theorem checking_of_pending {state : ClusterState} {actions : List AdmissionAction} {i : ℕ}
    {a : Admission} (ha : (run admissions { shared := state } actions).processes i = some a)
    {list : List ResourceSigningProfile} (hpending : a.handler.pending = some list) :
    a.progress = .checking := by
  have hmeets : Meets admissions (fun _ _ => True) { shared := state } actions :=
    meets_of_forall (fun _ _ => trivial) _ _
  have hsettled : a.Settled := by
    refine local_invariant Admission.Settled (fun _ => .inl rfl)
      (fun _ _ _ _ _ h _ => h.advance) (fun i a ha => ?_) hmeets i a ha
    cases ha
  refine hsettled.resolve_right fun hidle => ?_
  unfold Process.pending at hpending
  split at hpending
  · rename_i hphase
    rw [hphase] at hidle
    cases hidle
  · cases hpending

/-- A stored profile that is missing in the cached list is missed by the next handler. -/
theorem missed_of_cached {q : ResourceSigningProfile} {sys : AdmissionServer}
    (hstored : q ∈ sys.shared.profiles) {list : List ResourceSigningProfile}
    (hcached : sys.shared.cache.rsp = some list) (hq : q ∉ list) {j : ℕ}
    (hj : sys.processes j = none) (request : Request) :
    Meets admissions (StaysStored q) sys (lateCall j request) ∧
    ∃ b, (run admissions sys (lateCall j request)).processes j = some b ∧
      b.handler.phase = .returned ∧ q ∉ b.handler.data.rspList := by
  obtain ⟨b, hb, hphase, hlist⟩ := lateCall_rspList hcached hj request
  have hkeeps : (lateCall j request).all keepsProfiles = true := rfl
  exact ⟨staysStored_of_keeps hstored (List.all_eq_true.1 hkeeps), b, hb, hphase, hlist ▸ hq⟩

/-- A handler that is about to cache a list does so with its next step. -/
theorem step_of_pending {sys : AdmissionServer} {k : ℕ} {c : Admission}
    (hc : sys.processes k = some c) (hchecking : c.progress = .checking)
    {list : List ResourceSigningProfile} (hpending : c.handler.pending = some list) :
    (step admissions sys (.advance k .proceed)).shared.cache.rsp = some list := by
  obtain ⟨request, ⟨conf, data, phase⟩, progress⟩ := c
  obtain rfl : progress = .checking := hchecking
  unfold Process.pending at hpending
  split at hpending
  · rename_i list' hphase
    obtain rfl : phase = .loadRsp (.storing list') := hphase
    simp only [step, hc]
    exact hpending
  · cases hpending

/-- A stored profile that is not covered is missed by a handler that starts now. -/
theorem missed_of_not_covers {q : ResourceSigningProfile} {sys : AdmissionServer}
    (hchecking : ∀ k c list, sys.processes k = some c → c.handler.pending = some list →
      c.progress = .checking)
    (hstored : q ∈ sys.shared.profiles) (hq : ¬Covers q sys) {j : ℕ}
    (hj : sys.processes j = none) (request : Request) :
    ∃ after b, Meets admissions (StaysStored q) sys after ∧
      (run admissions sys after).processes j = some b ∧ b.handler.phase = .returned ∧
      q ∉ b.handler.data.rspList := by
  rw [Covers, not_and_or] at hq
  push Not at hq
  rcases hq with ⟨list, hcached, hlist⟩ | ⟨k, c, hc, list, hpending, hlist⟩
  · obtain ⟨hstays, b, hb⟩ := missed_of_cached hstored hcached hlist hj request
    exact ⟨_, b, hstays, hb⟩
  · -- the other handler caches its list first
    have hcached := step_of_pending hc (hchecking k c list hc hpending) hpending
    have hstored' : q ∈ (step admissions sys (.advance k .proceed)).shared.profiles := by
      rw [step_profiles rfl]
      exact hstored
    have hjk : j ≠ k := by
      rintro rfl
      cases hj.symm.trans hc
    have hj' : (step admissions sys (.advance k .proceed)).processes j = none := by
      simp only [step, hc, Function.update_of_ne hjk]
      exact hj
    obtain ⟨hstays, b, hb⟩ := missed_of_cached hstored' hcached hlist hj' request
    exact ⟨.advance k .proceed :: lateCall j request, b, ⟨hstored', hstays⟩, hb⟩

/-- Conversely, a profile that is stored while a list without it is cached, or about
to be, is missed by a handler that starts afterwards. -/
theorem stored_profile_missed (state : ClusterState) (before : List AdmissionAction) (i j : ℕ)
    (a : Admission) (request : Request)
    (ha : (run admissions { shared := state } before).processes i = some a) (hstores : a.Stores)
    (huncovered : ¬Covers a.request.object (run admissions { shared := state } before))
    (hj : (run admissions { shared := state } before).processes j = none) :
    ∃ after b,
      a.request.object ∈ (run admissions { shared := state }
        (before ++ [.advance i .complete])).shared.profiles ∧
      (run admissions { shared := state } (before ++ [.advance i .complete])).processes j = none ∧
      Meets admissions (StaysStored a.request.object)
        (run admissions { shared := state } (before ++ [.advance i .complete])) after ∧
      (run admissions { shared := state }
        (before ++ [.advance i .complete] ++ after)).processes j = some b ∧
      b.handler.phase = .returned ∧ a.request.object ∉ b.handler.data.rspList := by
  have hchecking : ∀ k c list, (run admissions { shared := state }
      (before ++ [.advance i .complete])).processes k = some c →
      c.handler.pending = some list → c.progress = .checking :=
    fun k c list hc => checking_of_pending hc
  have hcompleted : run admissions { shared := state } (before ++ [.advance i .complete]) = _ :=
    (run_append ..).trans (step_complete ha hstores)
  have hj' : (run admissions { shared := state } (before ++ [.advance i .complete])).processes j =
      none := by
    have hji : j ≠ i := by
      rintro rfl
      cases hj.symm.trans ha
    rw [hcompleted]
    exact (Function.update_of_ne hji ..).trans hj
  have hstored : a.request.object ∈ (run admissions { shared := state }
      (before ++ [.advance i .complete])).shared.profiles := by
    rw [run_append]
    exact stored_of_complete ha hstores
  have huncovered' : ¬Covers a.request.object
      (run admissions { shared := state } (before ++ [.advance i .complete])) := by
    rw [hcompleted]
    refine mt (fun hcovers => ⟨hcovers.1, fun k c hc => ?_⟩) huncovered
    by_cases hki : k = i
    · subst hki
      obtain rfl := Option.some.inj (ha.symm.trans hc)
      exact hcovers.2 k { a with progress := .completed } (Function.update_self ..)
    · exact hcovers.2 k c ((Function.update_of_ne hki ..).trans hc)
  obtain ⟨after, b, hstays, hb⟩ := missed_of_not_covers hchecking hstored huncovered' hj' request
  exact ⟨after, b, hstored, hj', hstays,
    (congrArg (System.processes · j) (run_append ..)).trans hb.1, hb.2⟩

end Converse

/-- The creation has been answered, and another handler lists the profiles and caches
them before the new one is stored. -/
def racingRequests : List AdmissionAction :=
  allowedCreation ++ requestSteps 1 adminConfigures (List.replicate 6 .proceed)

/-- **A stored profile is missed.**  The profile of an allowed creation is stored, and
the table of a handler that starts afterwards is built from a list without it. -/
theorem stored_profile_missed_in_race :
    letI := Outside.silent
    ∃ a after b,
      (run admissions { shared := opsState } racingRequests).processes 0 = some a ∧ a.Stores ∧
      a.request.object ∈ (run admissions { shared := opsState }
        (racingRequests ++ [.advance 0 .complete])).shared.profiles ∧
      (run admissions { shared := opsState }
        (racingRequests ++ [.advance 0 .complete])).processes 2 = none ∧
      Meets admissions (StaysStored a.request.object) (run admissions { shared := opsState }
        (racingRequests ++ [.advance 0 .complete])) after ∧
      (run admissions { shared := opsState }
        (racingRequests ++ [.advance 0 .complete] ++ after)).processes 2 = some b ∧
      b.handler.phase = .returned ∧ a.request.object ∉ b.handler.data.rspList := by
  let _ := Outside.silent
  have hanswered : ((run admissions { shared := opsState } racingRequests).processes 0).any
      (fun a => a.storesNow && a.request.object.namespace == "shield") = true := by
    decide +kernel
  have hcached : (run admissions { shared := opsState } racingRequests).shared.cache.rsp.any
      (fun list => list.all fun p => !(p.namespace == "shield")) = true := by
    decide +kernel
  have hnew : ((run admissions { shared := opsState } racingRequests).processes 2).isNone =
      true := by
    decide +kernel
  generalize racingRequests = before at *
  obtain ⟨a, ha, hall⟩ := (Option.any_eq_true ..).1 hanswered
  rw [Bool.and_eq_true, Admission.storesNow_iff] at hall
  obtain ⟨list, hlist, hother⟩ := (Option.any_eq_true ..).1 hcached
  have huncovered : ¬Covers a.request.object
      (run admissions { shared := opsState } before) := by
    intro hcovers
    have hnot := List.all_eq_true.1 hother _ (hcovers.1 list hlist)
    rw [hall.2] at hnot
    cases hnot
  obtain ⟨after, b, hmissed⟩ := stored_profile_missed opsState before 0 2 a adminConfigures ha
    hall.1 huncovered (Option.isNone_iff_eq_none.1 hnew)
  exact ⟨a, after, b, ha, hall.1, hmissed⟩

end Shield
end IntegrityShield
