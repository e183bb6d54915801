/-
# The status of a profile

`ResourceSigningProfileStatus` and `UpdateStatus` of
`shield/pkg/apis/resourcesigningprofile/v1alpha1/types.go`: a profile counts the requests
that were denied because of it, in all and by the kind of the resource, and lists
the latest ones.  A null entry of the summary is followed.

A run of updates from an empty status keeps the three views of its history
together (`Records`): each update adds one to the count, finds the entry of its
kind or appends one, and pushes its event (`Records.updateStatus`), so after any
run they agree (`updateStatuses_records`).
-/

import IntegrityShield.Common.Reqcontext

namespace IntegrityShield
namespace Apis

open Common

/-- `common.Request`. -/
structure Request where
  operation : String := ""
  «namespace» : String := ""
  apiGroup : String := ""
  apiVersion : String := ""
  kind : String := ""
  name : String := ""
  userName : String := ""
deriving DecidableEq

/-- `Request.GroupVersionKind`. -/
def Request.groupVersionKind (self : Request) : String :=
  self.apiGroup ++ "/" ++ self.apiVersion ++ ", Kind=" ++ self.kind

/-- `NewRequestFromReqContext`. -/
def newRequestFromReqContext (reqc : ReqContext) : Request where
  operation := reqc.operation
  «namespace» := reqc.namespace
  apiGroup := reqc.apiGroup
  apiVersion := reqc.apiVersion
  kind := reqc.kind
  name := reqc.name
  userName := reqc.userName

/-- `common.Result`. -/
structure Result where
  message : String := ""
  timestamp : String := ""
deriving DecidableEq

/-- `ProfileStatusSummary`. -/
structure ProfileStatusSummary where
  groupVersionKind : String := ""
  count : ℤ := 0
deriving DecidableEq

/-- `ProfileStatusDetail`. -/
structure ProfileStatusDetail where
  request : Option Request := none
  result : Option Result := none
deriving DecidableEq

/-- `maxHistoryLength`. -/
def maxHistoryLength : ℕ := 3

/-- `ResourceSigningProfileStatus`; its counts are small enough not to overflow. -/
structure ResourceSigningProfileStatus where
  denyCount : ℤ := 0
  summary : List (Option ProfileStatusSummary) := []
  latest : List (Option ProfileStatusDetail) := []
deriving DecidableEq

/-- The loop over the summary: the index of the last entry of a kind. -/
def findSummary (groupVersionKind : String) :
    List (Option ProfileStatusSummary) → ℕ → Option ℕ → Go (Option ℕ)
  | [], _, sumId => .ok sumId
  | s :: rest, i, sumId => do
      let s ← Go.deref s
      findSummary groupVersionKind rest (i + 1)
        (if groupVersionKind = s.groupVersionKind then some i else sumId)

/-- `UpdateStatus`, on the status of the profile; `timestamp` is the formatted time. -/
def ResourceSigningProfileStatus.updateStatus (self : ResourceSigningProfileStatus)
    (request : Request) (errMsg timestamp : String) : Go ResourceSigningProfileStatus := do
  let sumId ← findSummary request.groupVersionKind self.summary 0 none
  let summary := match sumId with
    | none => self.summary ++ [some { groupVersionKind := request.groupVersionKind, count := 1 }]
    | some i => self.summary.modify i (Option.map fun s => { s with count := s.count + 1 })
  let event : ProfileStatusDetail :=
    { request := some request, result := some { message := errMsg, timestamp := timestamp } }
  return {
    denyCount := self.denyCount + 1
    summary := summary
    latest := (some event :: self.latest).take maxHistoryLength }

/-- The loop follows every entry. -/
theorem findSummary_eq_error_iff (groupVersionKind : String)
    (summary : List (Option ProfileStatusSummary)) (i : ℕ) (sumId : Option ℕ) :
    (∃ fault, findSummary groupVersionKind summary i sumId = .error fault) ↔ none ∈ summary := by
  induction summary generalizing i sumId with
  | nil =>
      constructor
      · rintro ⟨fault, h⟩
        cases h
      · exact fun h => absurd h List.not_mem_nil
  | cons s rest ih =>
      cases s with
      | none => exact ⟨fun _ => List.mem_cons_self, fun _ => ⟨.nilDeref, rfl⟩⟩
      | some s => exact (ih (i + 1) _).trans (by simp)

namespace ResourceSigningProfileStatus

/-- A null entry of the summary makes the update fault. -/
theorem updateStatus_of_null {self : ResourceSigningProfileStatus} (h : none ∈ self.summary)
    (request : Request) (errMsg timestamp : String) :
    ∃ fault, self.updateStatus request errMsg timestamp = .error fault := by
  obtain ⟨fault, hfault⟩ :=
    (findSummary_eq_error_iff request.groupVersionKind self.summary 0 none).2 h
  exact ⟨fault, by rw [updateStatus, hfault]; rfl⟩

/-- Otherwise the denial is counted. -/
theorem updateStatus_of_not_null {self : ResourceSigningProfileStatus} (h : none ∉ self.summary)
    (request : Request) (errMsg timestamp : String) :
    ∃ status, self.updateStatus request errMsg timestamp = .ok status := by
  cases hfind : findSummary request.groupVersionKind self.summary 0 none with
  | error fault => exact absurd ((findSummary_eq_error_iff _ _ _ _).1 ⟨fault, hfind⟩) h
  | ok sumId => exact ⟨_, by rw [updateStatus, hfind]; rfl⟩

theorem denyCount_updateStatus {self status : ResourceSigningProfileStatus} {request : Request}
    {errMsg timestamp : String} (h : self.updateStatus request errMsg timestamp = .ok status) :
    status.denyCount = self.denyCount + 1 := by
  obtain ⟨sumId, _, hstatus⟩ := Go.bind_eq_ok.1 h
  rw [← Except.ok.inj hstatus]

end ResourceSigningProfileStatus

/-! ### Runs -/

/-- A call of `UpdateStatus`. -/
structure Denial where
  request : Request
  errMsg : String
  timestamp : String

/-- The event that a call is listed as. -/
def Denial.event (denial : Denial) : ProfileStatusDetail where
  request := some denial.request
  result := some { message := denial.errMsg, timestamp := denial.timestamp }

/-- The calls one after the other. -/
def ResourceSigningProfileStatus.updateStatuses (self : ResourceSigningProfileStatus)
    (denials : List Denial) : Go ResourceSigningProfileStatus :=
  denials.foldlM (fun status denial =>
    status.updateStatus denial.request denial.errMsg denial.timestamp) self

/-- A summary tallies a list of kinds: each kind of the list has one entry, with the number of its
occurrences. -/
structure Tallies (entries : List ProfileStatusSummary) (kinds : List String) : Prop where
  nodup : (entries.map ProfileStatusSummary.groupVersionKind).Nodup
  count : ∀ s ∈ entries, s.count = kinds.count s.groupVersionKind
  mem : ∀ kind ∈ kinds, ∃ s ∈ entries, s.groupVersionKind = kind
  sum : (entries.map ProfileStatusSummary.count).sum = kinds.length

theorem findSummary_of_absent {kind : String} {entries : List ProfileStatusSummary}
    (habsent : ∀ s ∈ entries, s.groupVersionKind ≠ kind) (i : ℕ) (sumId : Option ℕ) :
    findSummary kind (entries.map some) i sumId = .ok sumId := by
  induction entries generalizing i with
  | nil => rfl
  | cons s rest ih =>
      obtain ⟨hs, hrest⟩ := List.forall_mem_cons.1 habsent
      show findSummary kind (rest.map some) (i + 1) _ = _
      rw [if_neg hs.symm, ih hrest]

/-- The last entry of a kind is the one that is found. -/
theorem findSummary_of_last {kind : String} {pre post : List ProfileStatusSummary}
    {s : ProfileStatusSummary} (hs : s.groupVersionKind = kind)
    (hpost : ∀ s' ∈ post, s'.groupVersionKind ≠ kind) (i : ℕ) (sumId : Option ℕ) :
    findSummary kind ((pre ++ s :: post).map some) i sumId = .ok (some (i + pre.length)) := by
  induction pre generalizing i sumId with
  | nil =>
      show findSummary kind (post.map some) (i + 1) _ = _
      rw [if_pos hs.symm, findSummary_of_absent hpost]
      rfl
  | cons s' rest ih =>
      show findSummary kind ((rest ++ s :: post).map some) (i + 1) _ = _
      rw [ih, List.length_cons, Nat.add_right_comm, Nat.add_assoc]

/-- A kind that has no entry gets one. -/
theorem Tallies.append {entries : List ProfileStatusSummary} {kinds : List String}
    (h : Tallies entries kinds) {kind : String}
    (habsent : ∀ s ∈ entries, s.groupVersionKind ≠ kind) :
    Tallies (entries ++ [{ groupVersionKind := kind, count := 1 }]) (kinds ++ [kind]) where
  nodup := by
    rw [List.map_append, List.map_singleton, ← List.concat_eq_append, List.nodup_concat]
    refine ⟨fun hmem => ?_, h.nodup⟩
    obtain ⟨s, hs, hkind⟩ := List.mem_map.1 hmem
    exact habsent s hs hkind
  count := by
    have hzero : kinds.count kind = 0 := by
      refine List.count_eq_zero.2 fun hmem => ?_
      obtain ⟨s, hs, hkind⟩ := h.mem kind hmem
      exact habsent s hs hkind
    rw [List.forall_mem_append, List.forall_mem_singleton]
    refine ⟨fun s hs => ?_, by simp [hzero]⟩
    rw [List.count_append, List.count_singleton, h.count s hs]
    simp [(habsent s hs).symm]
  mem := by
    rw [List.forall_mem_append, List.forall_mem_singleton]
    refine ⟨fun kind' hkind' => ?_, _, List.mem_append_right _ (List.mem_singleton_self _), rfl⟩
    obtain ⟨s, hs, heq⟩ := h.mem kind' hkind'
    exact ⟨s, List.mem_append_left _ hs, heq⟩
  sum := by simp [h.sum]

/-- The entry that a kind has goes up by one. -/
theorem Tallies.modify {pre post : List ProfileStatusSummary} {s : ProfileStatusSummary}
    {kinds : List String} (h : Tallies (pre ++ s :: post) kinds) :
    Tallies (pre ++ { s with count := s.count + 1 } :: post) (kinds ++ [s.groupVersionKind]) where
  nodup := by simpa using h.nodup
  count := by
    -- the other entries are of other kinds, so the new call is none of theirs
    have hother : ∀ s' ∈ pre ++ post, s'.groupVersionKind ≠ s.groupVersionKind := by
      have hnodup := h.nodup
      rw [List.map_append, List.map_cons, List.nodup_middle, ← List.map_append,
        List.nodup_cons] at hnodup
      exact fun s' hs' heq => hnodup.1 (heq ▸ List.mem_map_of_mem hs')
    have hcount : ∀ s' ∈ pre ++ post,
        s'.count = (kinds ++ [s.groupVersionKind]).count s'.groupVersionKind := by
      intro s' hs'
      have hold := h.count s' (by simp only [List.mem_append, List.mem_cons] at hs' ⊢; tauto)
      rw [List.count_append, List.count_singleton, hold]
      simp [(hother s' hs').symm]
    rw [List.forall_mem_append] at hcount
    rw [List.forall_mem_append, List.forall_mem_cons]
    refine ⟨hcount.1, ?_, hcount.2⟩
    have hold := h.count s (List.mem_append_right _ List.mem_cons_self)
    simp [hold]
  mem := by
    rw [List.forall_mem_append, List.forall_mem_singleton]
    refine ⟨fun kind hkind => ?_, _, List.mem_append_right _ List.mem_cons_self, rfl⟩
    obtain ⟨s', hs', heq⟩ := h.mem kind hkind
    rcases List.mem_append.1 hs' with hs' | hs'
    · exact ⟨s', List.mem_append_left _ hs', heq⟩
    rcases List.mem_cons.1 hs' with rfl | hs'
    · exact ⟨_, List.mem_append_right _ List.mem_cons_self, heq⟩
    · exact ⟨s', List.mem_append_right _ (List.mem_cons_of_mem _ hs'), heq⟩
  sum := by
    have hsum := h.sum
    simp only [List.map_append, List.map_cons, List.sum_append, List.sum_cons, List.length_append,
      List.length_singleton] at hsum ⊢
    push_cast
    omega

/-- A status is that of a history of denials. -/
structure Records (status : ResourceSigningProfileStatus) (denials : List Denial) : Prop where
  denyCount : status.denyCount = denials.length
  summary : ∃ entries : List ProfileStatusSummary, status.summary = entries.map some ∧
    Tallies entries (denials.map fun denial => denial.request.groupVersionKind)
  latest : status.latest = (denials.reverse.take maxHistoryLength).map (some ·.event)

theorem Records.empty : Records {} [] where
  denyCount := rfl
  summary := ⟨[], rfl, List.nodup_nil, by simp, by simp, rfl⟩
  latest := rfl

/-- **One update.** -/
theorem Records.updateStatus {status : ResourceSigningProfileStatus} {denials : List Denial}
    (h : Records status denials) (denial : Denial) :
    ∃ status', status.updateStatus denial.request denial.errMsg denial.timestamp = .ok status' ∧
      Records status' (denials ++ [denial]) := by
  obtain ⟨entries, hsummary, htallies⟩ := h.summary
  have hlatest : (some denial.event :: status.latest).take maxHistoryLength =
      ((denials ++ [denial]).reverse.take maxHistoryLength).map (some ·.event) := by
    rw [h.latest, List.reverse_append, List.reverse_singleton, List.singleton_append]
    show _ :: List.take _ _ = _ :: List.map _ (List.take _ _)
    rw [← List.map_take, List.take_take]
    rfl
  have hdeny : status.denyCount + 1 = (denials ++ [denial]).length := by
    rw [h.denyCount, List.length_append, List.length_singleton, Nat.cast_add, Nat.cast_one]
  by_cases hmem : ∃ s ∈ entries, s.groupVersionKind = denial.request.groupVersionKind
  · obtain ⟨s, hs, hkind⟩ := hmem
    obtain ⟨pre, post, rfl⟩ := List.append_of_mem hs
    have hpost : ∀ s' ∈ post, s'.groupVersionKind ≠ denial.request.groupVersionKind := by
      have hnodup := htallies.nodup
      rw [List.map_append, List.map_cons, List.nodup_append] at hnodup
      rw [← hkind]
      exact fun s' hs' heq =>
        (List.nodup_cons.1 hnodup.2.1).1 (heq ▸ List.mem_map_of_mem hs')
    refine ⟨_, by
      rw [ResourceSigningProfileStatus.updateStatus, hsummary, findSummary_of_last hkind hpost,
        Go.ok_bind]; rfl, hdeny, ?_, hlatest⟩
    refine ⟨pre ++ { s with count := s.count + 1 } :: post, ?_, ?_⟩
    · show List.modify _ (0 + pre.length) _ = _
      rw [Nat.zero_add, List.map_append, List.map_cons, List.map_append, List.map_cons]
      have hlength : (pre.map some).length = pre.length := List.length_map some
      rw [List.modify_eq_take_drop, List.take_left' hlength, List.drop_left' hlength]
      rfl
    · rw [List.map_append, List.map_singleton, ← hkind]
      exact htallies.modify
  · have habsent : ∀ s ∈ entries, s.groupVersionKind ≠ denial.request.groupVersionKind :=
      fun s hs heq => hmem ⟨s, hs, heq⟩
    refine ⟨_, by
      rw [ResourceSigningProfileStatus.updateStatus, hsummary, findSummary_of_absent habsent,
        Go.ok_bind]; rfl, hdeny, ?_, hlatest⟩
    refine ⟨entries ++ [{ groupVersionKind := denial.request.groupVersionKind, count := 1 }],
      ?_, ?_⟩
    · rw [List.map_append]
      rfl
    · rw [List.map_append, List.map_singleton]
      exact htallies.append habsent

/-- **A run of updates.** -/
theorem Records.updateStatuses {status : ResourceSigningProfileStatus} {done : List Denial}
    (h : Records status done) (denials : List Denial) :
    ∃ status', status.updateStatuses denials = .ok status' ∧ Records status' (done ++ denials) := by
  induction denials generalizing status done with
  | nil => exact ⟨status, rfl, by rwa [List.append_nil]⟩
  | cons denial rest ih =>
      obtain ⟨status₁, hstep, h₁⟩ := h.updateStatus denial
      obtain ⟨status₂, hrun, h₂⟩ := ih h₁
      refine ⟨status₂, ?_, by rwa [List.append_assoc] at h₂⟩
      rw [ResourceSigningProfileStatus.updateStatuses, List.foldlM_cons, hstep]
      exact hrun

/-- **The three views of a run of denials agree.** -/
theorem updateStatuses_records (denials : List Denial) :
    ∃ status, ({} : ResourceSigningProfileStatus).updateStatuses denials = .ok status ∧
      status.denyCount = denials.length ∧
      (∃ entries : List ProfileStatusSummary, status.summary = entries.map some ∧
        (entries.map ProfileStatusSummary.groupVersionKind).Nodup ∧
        (∀ s ∈ entries, s.count = denials.countP fun denial =>
          denial.request.groupVersionKind = s.groupVersionKind) ∧
        (∀ denial ∈ denials,
          ∃ s ∈ entries, s.groupVersionKind = denial.request.groupVersionKind) ∧
        (entries.map ProfileStatusSummary.count).sum = denials.length) ∧
      status.latest = (denials.reverse.take maxHistoryLength).map (some ·.event) := by
  obtain ⟨status, hrun, h⟩ := Records.empty.updateStatuses denials
  obtain ⟨entries, hsummary, htallies⟩ := h.summary
  refine ⟨status, hrun, h.denyCount, ⟨entries, hsummary, htallies.nodup, fun s hs => ?_,
    fun denial hdenial => htallies.mem _ (List.mem_map_of_mem hdenial), ?_⟩, h.latest⟩
  · rw [htallies.count s hs, List.nil_append, List.count, List.countP_map]
    rfl
  · rw [htallies.sum, List.nil_append, List.length_map]

end Apis
end IntegrityShield
