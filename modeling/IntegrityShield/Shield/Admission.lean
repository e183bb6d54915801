/-
# Admissions and the API server

The server of `Concurrency` together with the API server it answers to.  A request
is admitted by a handler, which clears the cached lists in `Handler.finalize` before
it answers, if the request is for a profile or a namespace; the API server stores a
profile some time after an answer that allows it.  List calls return what is stored.

The check itself is left open here: a handler may decide either way once it is not in
a call.  What a step does to the lists is said once for a handler and once for an
admission (`advance_cached`, `advance_pending`, `advance_stored`), and a handler that
starts after a profile has been stored keeps to lists with the profile in them as long
as those it is given have it (`Process.Sees`).
-/

import IntegrityShield.Shield.Concurrency
import IntegrityShield.Shield.Handler

namespace IntegrityShield
namespace Shield

open Common Apis Interleaving

/-- The cache of the server, and what is stored at the API server. -/
structure ClusterState where
  cache : SharedCache := {}
  profiles : List ResourceSigningProfile := []
  namespaces : List Namespace := []

namespace ClusterState

/-- The answers to list calls. -/
def answers (state : ClusterState) : ApiAnswers where
  rsp := .ok state.profiles
  ns := .ok state.namespaces

/-- The stored profiles other than that of a namespace and a name. -/
def others (state : ClusterState) (ns name : String) : List ResourceSigningProfile :=
  state.profiles.filter fun p => !(p.namespace == ns && p.name == name)

/-- A profile is stored, in the place of the version before it. -/
def persist (state : ClusterState) (object : ResourceSigningProfile) : ClusterState :=
  { state with profiles := state.others object.namespace object.name ++ [object] }

end ClusterState

/-- A request, as far as it matters to the lists: who asks for what, and the profile
that is going to be stored if it is one for a profile. -/
structure Request where
  conf : ShieldConfig
  reqc : ReqContext
  object : ResourceSigningProfile := {}

/-- The request creates or updates a profile. -/
def Request.putsProfile (request : Request) : Bool :=
  decide (request.reqc.kind = profileCustomResourceKind) &&
    (request.reqc.isCreateRequest || request.reqc.isUpdateRequest)

/-- How far the admission of a request is. -/
inductive Progress where
  /-- In `Init` and `Check`. -/
  | checking
  /-- In `resetRuleTableCache`, before `RSP.ClearCache`. -/
  | clearingRsp
  /-- In `resetRuleTableCache`, before `Namespace.ClearCache`. -/
  | clearingNs
  /-- The response has been given. -/
  | answered (allowed : Bool)
  /-- The API server has gone on with the request. -/
  | completed
deriving DecidableEq

/-- The admission of a request. -/
structure Admission where
  request : Request
  handler : Process
  progress : Progress := .checking

/-- What happens next in an admission. -/
inductive AdmissionStep where
  /-- The handler takes a step. -/
  | proceed
  /-- The handler decides. -/
  | verdict (allowed : Bool)
  /-- The API server completes the request. -/
  | complete

/-- A handler is not in a call. -/
def Phase.isIdle : Phase → Bool
  | .ready => true
  | .returned => true
  | _ => false

/-- What the environment does: an entry of the cache expires, a profile is deleted,
the namespaces change. -/
inductive ClusterEvent where
  | forget (entry : Forget)
  | deleteProfile (ns name : String)
  | setNamespaces (namespaces : List Namespace)

/-- The effect of an event. -/
def ClusterState.apply : ClusterEvent → ClusterState → ClusterState
  | .forget entry, state => { state with cache := state.cache.forget entry }
  | .deleteProfile ns name, state => { state with profiles := state.others ns name }
  | .setNamespaces namespaces, state => { state with namespaces := namespaces }

/-- An event puts no list into the cache. -/
theorem ClusterState.apply_cached {event : ClusterEvent} {state : ClusterState}
    {list : List ResourceSigningProfile}
    (h : (ClusterState.apply event state).cache.rsp = some list) :
    state.cache.rsp = some list := by
  cases event with
  | forget entry =>
      cases entry with
      | rsp => cases h
      | ns => exact h
  | deleteProfile ns name => exact h
  | setNamespaces namespaces => exact h

/-- An event stores no profile. -/
theorem ClusterState.apply_stored {event : ClusterEvent} {state : ClusterState}
    {q : ResourceSigningProfile} (h : q ∈ (ClusterState.apply event state).profiles) :
    q ∈ state.profiles := by
  cases event with
  | forget entry => exact h
  | deleteProfile ns name => exact (List.mem_filter.1 h).1
  | setNamespaces namespaces => exact h

namespace Admission

variable [Outside]

/-- What `finalize` does after a decision.  A handler that faults gives no answer,
which the API server takes for a refusal. -/
def afterDecision (request : Request) (allowed : Bool) : Progress :=
  match Handler.finalize request.conf request.reqc { allowed := allowed, message := "" } with
  | .ok true => .clearingRsp
  | .ok false => .answered allowed
  | .error _ => .answered false

/-- One step of an admission; one that does not apply changes nothing. -/
def advance (step : AdmissionStep) (a : Admission) (state : ClusterState) :
    Admission × ClusterState :=
  match a.progress, step with
  | .checking, .proceed =>
      ({ a with handler := (a.handler.advance state.answers state.cache).1 },
       { state with cache := (a.handler.advance state.answers state.cache).2 })
  | .checking, .verdict allowed =>
      (if a.handler.phase.isIdle then { a with progress := afterDecision a.request allowed } else a,
       state)
  | .clearingRsp, .proceed =>
      ({ a with progress := .clearingNs }, { state with cache := state.cache.forget .rsp })
  | .clearingNs, .proceed =>
      ({ a with progress := .answered true }, { state with cache := state.cache.forget .ns })
  | .answered true, .complete =>
      ({ a with progress := .completed },
       if a.request.putsProfile then state.persist a.request.object else state)
  | _, _ => (a, state)

end Admission

section Runs

variable [Outside]

/-- The admissions of one server. -/
def admissions : Program Request AdmissionStep ClusterEvent Admission ClusterState where
  create request := { request := request, handler := { conf := request.conf } }
  advance := Admission.advance
  environment := ClusterState.apply

/-- The server, its API server, and the admissions there are. -/
abbrev AdmissionServer := System ℕ Admission ClusterState

/-- A request arrives, an admission goes on, or something happens in the cluster. -/
abbrev AdmissionAction := Action ℕ Request AdmissionStep ClusterEvent

end Runs

namespace RunData

/-- The profiles are those of the loader, and a table is built from them, for some
namespaces. -/
structure Built (shieldNamespace : String) (data : RunData) : Prop where
  rspList : data.rspList = data.rspData
  table : ∀ table, data.ruleTable = some table → data.rspList ≠ [] ∧ ∃ namespaces,
    table = newRuleTable data.rspList namespaces data.commonProfile shieldNamespace

variable {shieldNamespace : String} {data : RunData}

theorem Built.setRuleTable (h : data.Built shieldNamespace) :
    (data.setRuleTable shieldNamespace).Built shieldNamespace := by
  rw [RunData.setRuleTable]
  split_ifs with husable
  · refine ⟨h.rspList, fun table htable => ?_⟩
    obtain rfl := Option.some.inj htable
    rw [Bool.and_eq_true, Bool.not_eq_true'] at husable
    exact ⟨(RuleTable.isEmpty_newRuleTable ..).1 husable.1, data.nsList, rfl⟩
  · exact h

theorem initWith_built (rspData : List ResourceSigningProfile) (nsData : List Namespace)
    (conf : ShieldConfig) : (initWith rspData nsData conf).Built conf.namespace := by
  have hlists : Built conf.namespace {
      rspList := rspData
      nsList := nsData
      rspData := rspData
      nsData := nsData
      commonProfile := conf.commonProfile } :=
    ⟨rfl, fun table htable => by cases htable⟩
  exact hlists.setRuleTable

/-- A table is kept only with the profiles it was built from. -/
theorem Built.updateRuleTable (h : data.Built shieldNamespace)
    {rsp : List ResourceSigningProfile × Bool} (hrsp : Loaded data.rspData rsp)
    (ns : List Namespace × Bool) :
    (data.updateRuleTable shieldNamespace rsp ns).Built shieldNamespace := by
  have hrspList : (data.takeLists rsp ns).rspList = rsp.1 := by
    rw [takeLists, h.rspList]
    exact taken_eq hrsp
  have htaken : (data.takeLists rsp ns).Built shieldNamespace := by
    refine ⟨hrspList, fun table htable => ?_⟩
    obtain ⟨hne, namespaces, htable⟩ := h.table table htable
    have hsame : rsp.1 = data.rspList := by
      rw [h.rspList] at hne ⊢
      rw [hrsp hne]
    rw [hrspList, hsame]
    exact ⟨hne, namespaces, htable⟩
  rw [RunData.updateRuleTable]
  split_ifs
  · exact htaken.setRuleTable
  · exact htaken

theorem updateRuleTable_rspData (rsp : List ResourceSigningProfile × Bool)
    (ns : List Namespace × Bool) :
    (data.updateRuleTable shieldNamespace rsp ns).rspData = rsp.1 := by
  rw [RunData.updateRuleTable]
  split_ifs
  · exact setRuleTable_rspData ..
  · rfl

end RunData

/-- A loader is about to store only what it has just listed. -/
theorem Fetch.next_storing {α : Type} {data list : List α} {cached : Option (List α)}
    {listed : Except String (List α)} {fetch : Fetch α}
    (h : fetch.next data cached listed = .inl (.storing list)) : listed = .ok list := by
  cases fetch with
  | reading =>
      simp only [Fetch.next] at h
      split_ifs at h
      cases hcached : cached with
      | none => rw [hcached] at h; cases h
      | some list' => rw [hcached] at h; cases h
  | listing =>
      simp only [Fetch.next] at h
      cases hlisted : listed with
      | error e => rw [hlisted] at h; cases h
      | ok list' =>
          simp only [hlisted] at h
          split_ifs at h
          cases h
          rfl
  | storing list' => cases h

/-- What a loader returns contains a profile that is in its data, if there is some, in
the list of the cache, in what is listed, and in what it is about to store. -/
theorem Fetch.mem_of_next {α : Type} {q : α} {data list : List α} {cached : Option (List α)}
    {fetch : Fetch α} {result : List α × Bool} (hdata : data = [] ∨ q ∈ data)
    (hcached : ∀ list, cached = some list → q ∈ list) (hlisted : q ∈ list)
    (hpending : ∀ list, fetch = .storing list → q ∈ list)
    (h : fetch.next data cached (.ok list) = .inr result) : q ∈ result.1 := by
  cases fetch with
  | reading =>
      simp only [Fetch.next] at h
      split_ifs at h with hempty
      · cases hc : cached with
        | none => rw [hc] at h; cases h
        | some list' =>
            rw [hc] at h
            obtain rfl := Sum.inr.inj h
            exact hcached list' hc
      · obtain rfl := Sum.inr.inj h
        exact hdata.resolve_left fun hnil => hempty (by rw [hnil]; rfl)
  | listing =>
      simp only [Fetch.next] at h
      split_ifs at h
      obtain rfl := Sum.inr.inj h
      exact hlisted
  | storing list' =>
      obtain rfl := Sum.inr.inj h
      exact hpending list' rfl

namespace Process

/-- The profile list that a handler is about to put into the cache. -/
def pending (p : Process) : Option (List ResourceSigningProfile) :=
  match p.phase with
  | .loadRsp (.storing list) => some list
  | _ => none

/-- A profile list gets into the cache only from a handler that was about to put it
there. -/
theorem advance_cached {p : Process} {api : ApiAnswers} {cache : SharedCache}
    {list : List ResourceSigningProfile} (h : (p.advance api cache).2.rsp = some list) :
    cache.rsp = some list ∨ p.pending = some list := by
  obtain ⟨conf, data, phase⟩ := p
  cases phase with
  | loadRsp fetch =>
      cases fetch with
      | reading => exact .inl h
      | listing => exact .inl h
      | storing list' => exact .inr h
  | initRsp => exact .inl h
  | initNs rspData => exact .inl h
  | ready => exact .inl h
  | returned => exact .inl h
  | loadNs rsp fetch => exact .inl h
  | loaded rsp ns => exact .inl h

/-- A handler is about to put only what it has just listed into the cache. -/
theorem advance_pending {p : Process} {api : ApiAnswers} {cache : SharedCache}
    {list : List ResourceSigningProfile} (h : (p.advance api cache).1.pending = some list) :
    api.rsp = .ok list := by
  obtain ⟨conf, data, phase⟩ := p
  cases phase with
  | loadRsp fetch =>
      simp only [advance] at h
      cases hnext : fetch.next data.rspData cache.rsp api.rsp with
      | inr rsp =>
          rw [hnext] at h
          cases h
      | inl fetch' =>
          rw [hnext] at h
          cases fetch' with
          | reading => cases h
          | listing => cases h
          | storing list' =>
              obtain rfl := Option.some.inj h
              exact Fetch.next_storing hnext
  | initRsp => cases h
  | initNs rspData => cases h
  | ready => cases h
  | returned => cases h
  | loadNs rsp fetch =>
      simp only [advance] at h
      cases hnext : fetch.next data.nsData cache.ns api.ns with
      | inl fetch' =>
          rw [hnext] at h
          cases h
      | inr ns =>
          rw [hnext] at h
          cases h
  | loaded rsp ns => cases h

/-- What holds of a handler that started after a profile had been stored: the lists
it has loaded contain the profile. -/
def Sees (q : ResourceSigningProfile) (p : Process) : Prop :=
  match p.phase with
  | .initRsp => True
  | .initNs rspData => rspData = [] ∨ q ∈ rspData
  | .ready => p.data.Built p.conf.namespace ∧ (p.data.rspData = [] ∨ q ∈ p.data.rspData)
  | .loadRsp fetch => p.data.Built p.conf.namespace ∧
      (p.data.rspData = [] ∨ q ∈ p.data.rspData) ∧ fetch.Fits p.data.rspData
  | .loadNs rsp _ => p.data.Built p.conf.namespace ∧ RunData.Loaded p.data.rspData rsp ∧ q ∈ rsp.1
  | .loaded rsp _ => p.data.Built p.conf.namespace ∧ RunData.Loaded p.data.rspData rsp ∧ q ∈ rsp.1
  | .returned => p.data.Built p.conf.namespace ∧ q ∈ p.data.rspData

/-- **A step of a handler keeps that**, if the profile is stored, and in the list of
the cache and in the one that the handler is about to put there. -/
theorem Sees.advance {q : ResourceSigningProfile} {p : Process} (h : p.Sees q) {api : ApiAnswers}
    {cache : SharedCache} {profiles : List ResourceSigningProfile}
    (hlisted : api.rsp = .ok profiles) (hstored : q ∈ profiles)
    (hcached : ∀ list, cache.rsp = some list → q ∈ list)
    (hpending : ∀ list, p.pending = some list → q ∈ list) : (p.advance api cache).1.Sees q := by
  obtain ⟨conf, data, phase⟩ := p
  cases phase with
  | initRsp =>
      change (Answer.getData ⟨cache.rsp, api.rsp⟩ false []).1 = [] ∨ _
      cases hc : cache.rsp with
      | none => exact .inl rfl
      | some list => exact .inr (hcached list hc)
  | initNs rspData =>
      refine ⟨RunData.initWith_built .., ?_⟩
      change RunData.rspData (RunData.initWith ..) = [] ∨ q ∈ RunData.rspData (RunData.initWith ..)
      rw [RunData.initWith, RunData.setRuleTable_rspData]
      exact h
  | ready => exact ⟨h.1, h.2, .inl rfl⟩
  | returned => exact ⟨h.1, .inr h.2, .inl rfl⟩
  | loadRsp fetch =>
      obtain ⟨hbuilt, hdata, hfits⟩ := h
      have hstoring : ∀ list, fetch = .storing list → q ∈ list := by
        rintro list rfl
        exact hpending list rfl
      simp only [Process.advance, hlisted]
      cases hnext : fetch.next data.rspData cache.rsp (.ok profiles) with
      | inl fetch' => exact ⟨hbuilt, hdata, .inr (Fetch.next_inl hfits hnext)⟩
      | inr rsp =>
          exact ⟨hbuilt, (Fetch.next_inr hfits hnext).1,
            Fetch.mem_of_next hdata hcached hstored hstoring hnext⟩
  | loadNs rsp fetch =>
      simp only [Process.advance]
      cases fetch.next data.nsData cache.ns api.ns with
      | inl fetch' => exact h
      | inr ns => exact h
  | loaded rsp ns =>
      obtain ⟨hbuilt, hloaded, hq⟩ := h
      refine ⟨hbuilt.updateRuleTable hloaded ns, ?_⟩
      change q ∈ (data.updateRuleTable conf.namespace rsp ns).rspData
      rw [RunData.updateRuleTable_rspData]
      exact hq

/-- A cached list is what the call of a new handler returns with. -/
theorem iterate_lateCall (conf : ShieldConfig) (profiles list : List ResourceSigningProfile) :
    ∃ p cache, (fun s : Process × SharedCache => s.1.advance ⟨.ok profiles, .ok []⟩ s.2)^[7]
        ({ conf := conf }, ⟨some list, none⟩) = (p, cache) ∧
      p.phase = .returned ∧ p.data.rspList = list := by
  obtain ⟨data, hdata⟩ : ∃ data, data = RunData.initWith list [] conf := ⟨_, rfl⟩
  have hrsp : data.rspData = list := by
    rw [hdata, RunData.initWith, RunData.setRuleTable_rspData]
  have hns : data.nsData = [] := by
    rw [hdata, RunData.initWith, RunData.setRuleTable_nsData]
  have hbuilt : data.Built conf.namespace := hdata ▸ RunData.initWith_built ..
  have hloaded : RunData.Loaded data.rspData (list, false) := fun _ => by rw [hrsp]
  have hread : Fetch.next data.rspData (some list) (.ok profiles) .reading =
      .inr (list, false) := by
    rw [Fetch.next, hrsp, ite_self]
  refine ⟨⟨conf, data.updateRuleTable conf.namespace (list, false) ([], true), .returned⟩,
    ⟨some list, none⟩, ?_, rfl, ?_⟩
  · have hready : (fun s : Process × SharedCache => s.1.advance ⟨.ok profiles, .ok []⟩ s.2)^[3]
        ({ conf := conf }, ⟨some list, none⟩) =
        (⟨conf, data, .loadRsp .reading⟩, ⟨some list, none⟩) := by
      rw [hdata]
      rfl
    rw [Function.iterate_add_apply _ 4 3, hready]
    simp only [Function.iterate_succ_apply, Function.iterate_zero, id, advance, hread, hns,
      Fetch.cachedAfter]
    rfl
  · have hafter := hbuilt.updateRuleTable hloaded ([], true)
    rw [hafter.rspList, RunData.updateRuleTable_rspData]

end Process

/-- The API server stores the profile of an admission when it completes it. -/
def Admission.Stores (a : Admission) : Prop :=
  a.progress = .answered true ∧ a.request.putsProfile = true

section Steps

variable [Outside]

namespace Admission

variable {step : AdmissionStep} {a : Admission} {state : ClusterState}
  {list : List ResourceSigningProfile}

/-- A profile list gets into the cache only from a handler that was about to put it
there. -/
theorem advance_cached (h : (a.advance step state).2.cache.rsp = some list) :
    state.cache.rsp = some list ∨ a.handler.pending = some list := by
  unfold advance at h
  split at h
  · exact Process.advance_cached h
  · exact .inl h
  · cases h
  · exact .inl h
  · split_ifs at h
    · exact .inl h
    · exact .inl h
  · exact .inl h

/-- A handler is about to put only what is stored into the cache. -/
theorem advance_pending (h : (a.advance step state).1.handler.pending = some list) :
    a.handler.pending = some list ∨ step = .proceed ∧ list = state.profiles := by
  unfold advance at h
  split at h
  · exact .inr ⟨rfl, (Except.ok.inj (Process.advance_pending h)).symm⟩
  · split_ifs at h
    · exact .inl h
    · exact .inl h
  · exact .inl h
  · exact .inl h
  · exact .inl h
  · exact .inl h

/-- A step of an admission keeps its handler seeing a profile. -/
theorem sees_advance {q : ResourceSigningProfile} (h : a.handler.Sees q)
    (hstored : q ∈ state.profiles) (hcached : ∀ list, state.cache.rsp = some list → q ∈ list)
    (hpending : ∀ list, a.handler.pending = some list → q ∈ list) :
    (a.advance step state).1.handler.Sees q := by
  unfold advance
  split
  · exact h.advance rfl hstored hcached hpending
  · split_ifs
    · exact h
    · exact h
  · exact h
  · exact h
  · exact h
  · exact h

theorem advance_profiles (h : step ≠ .complete) :
    (a.advance step state).2.profiles = state.profiles := by
  unfold advance
  split
  · rfl
  · rfl
  · rfl
  · rfl
  · exact absurd rfl h
  · rfl

/-- At its completion an admission stores its profile, and changes no list. -/
theorem Stores.advance (h : a.Stores) : a.advance .complete state =
    ({ a with progress := .completed }, state.persist a.request.object) := by
  obtain ⟨request, handler, progress⟩ := a
  obtain ⟨rfl, hputs⟩ := h
  simp only [Admission.advance, hputs]
  rfl

/-- A handler is in a call only while its request is being checked. -/
def Settled (a : Admission) : Prop := a.progress = .checking ∨ a.handler.phase.isIdle = true

theorem Settled.advance (h : a.Settled) : (a.advance step state).1.Settled := by
  have hidle : a.progress ≠ .checking → a.handler.phase.isIdle = true := h.resolve_left
  unfold Admission.advance
  split
  · rename_i hprogress
    exact .inl hprogress
  · rename_i hprogress
    split_ifs with hi
    · exact .inr hi
    · exact h
  · rename_i hprogress
    exact .inr (hidle (by rw [hprogress]; decide))
  · rename_i hprogress
    exact .inr (hidle (by rw [hprogress]; decide))
  · rename_i hprogress
    exact .inr (hidle (by rw [hprogress]; decide))
  · exact h

/-- A profile gets stored only at the completion of its admission. -/
theorem advance_stored {q : ResourceSigningProfile}
    (h : q ∈ (a.advance step state).2.profiles) :
    q ∈ state.profiles ∨ step = .complete ∧ a.Stores ∧ q = a.request.object := by
  unfold advance at h
  split at h
  · exact .inl h
  · exact .inl h
  · exact .inl h
  · exact .inl h
  · rename_i hprogress
    split_ifs at h with hputs
    · rcases List.mem_append.1 h with hother | hobject
      · exact .inl (List.mem_filter.1 hother).1
      · exact .inr ⟨rfl, ⟨hprogress, hputs⟩, List.mem_singleton.1 hobject⟩
    · exact .inl h
  · exact .inl h

end Admission

/-- The handler of an admission that only proceeds takes its own steps. -/
theorem Admission.foldl_proceed (n : ℕ) (request : Request) (p : Process) (state : ClusterState) :
    (List.replicate n AdmissionStep.proceed).foldl (fun s b => Admission.advance b s.1 s.2)
        (⟨request, p, .checking⟩, state) =
      let s := (fun s : Process × SharedCache => s.1.advance state.answers s.2)^[n] (p, state.cache)
      (⟨request, s.1, .checking⟩, { state with cache := s.2 }) := by
  induction n generalizing p state with
  | zero => rfl
  | succ n ih =>
      rw [List.replicate_succ, List.foldl_cons, Function.iterate_succ_apply]
      exact ih _ _

end Steps

end Shield
end IntegrityShield
