/-
# Reporting what was decided

`Handler.Report` of `shield/pkg/shield/handler.go`, and `createOrUpdateEvent` and
`updateRSPStatus` of `checkUtils.go`, which it calls: a request that is denied, or one about the
shield's own resources that comes from its admin, is counted in an event, and a request that is
denied because of a profile is put down in the status of the profile.

`Report` goes by the context of the check, not by the answer that is sent.  The two agree
(`context_of_decided`), and a context never has both a profile to blame and a resource of the
shield (`blameless_check`).  So what is in the cluster after any number of requests is the history
of the answers (`denials_recorded`), as long as nothing else writes the objects; what happens if
two updates of a status overlap is another matter (`Shield.StatusReport`).

A count of an event is small enough not to overflow.  The names of kinds and operations are
written in ASCII.
-/

import IntegrityShield.Apis.ProfileStatus
import IntegrityShield.Base.ObjectStore
import IntegrityShield.Shield.Mediation

namespace IntegrityShield

open Common Apis ObjectStore

/-- The codes of `ReasonCodeMap`; `REASON_NOT_VERIFIED` has no entry. -/
def Common.ReasonCode.code : ReasonCode → String
  | .internal => "internal"
  | .validationFail => "validation-fail"
  | .ruleMatch => "rule-match"
  | .validSig => "valid-sig"
  | .verifiedOwner => "verified-owner"
  | .updateBySA => "updated-by-sa"
  | .verifiedSA => "verified-sa"
  | .noMutation => "no-mutation"
  | .iShieldAdmin => "ishield-admin"
  | .ignoredSA => "ignored-sa"
  | .notProtected => "unprotected"
  | .ignoreRuleMatched => "ignore-rule-matched"
  | .blockIShieldResourceOperation => "direct-access-prohibited"
  | .notVerified => ""
  | .skipDelete => "skip-delete"
  | .aborted => "aborted"
  | .breakGlass => "breakglass"
  | .detection => "detection"
  | .invalidSig => "invalid-signature"
  | .noSig => "no-signature"
  | .noValidKeyring => "no-valid-keyring"
  | .noMatchSignerConfig => "no-match-signer-config"
  | .unexpected => "unexpected"
  | .error => "error"

namespace Shield

/-! ## Events and profiles -/

/-- `v1.ObjectReference`. -/
structure ObjectReference where
  «namespace» : String
  apiVersion : String
  kind : String
  name : String

/-- `v1.Event`, as far as it is written. -/
structure EventObject where
  annotations : Labels
  involvedObject : ObjectReference
  type : String
  component : String
  reportingController : String
  reportingInstance : String
  action : String
  firstTimestamp : String
  message : ByteArray := .empty
  reason : String := ""
  count : ℤ := 0
  eventTime : String := ""
  lastTimestamp : String := ""

/-- The objects that a report writes. -/
inductive ReportKey where
  | event («namespace» name : String)
  | profile («namespace» name : String)
deriving DecidableEq

/-- Of a profile only the status is written. -/
@[reducible] def ReportKey.Content : ReportKey → Type
  | .event _ _ => EventObject
  | .profile _ _ => ResourceSigningProfileStatus

/-- The result of a check, as the name of an event and its annotation have it. -/
def resultStr (allow : Bool) : String := if allow then "allow" else "deny"

/-- The name of the event of a request. -/
def evtName (reqc : ReqContext) (allow : Bool) : String :=
  "ishield-" ++ resultStr allow ++ "-" ++ reqc.operation.toLower ++ "-" ++ reqc.kind.toLower ++
    "-" ++ reqc.name

/-- The namespace of the event of a request. -/
def evtNamespace (reqc : ReqContext) (sconfig : ShieldConfig) : String :=
  if reqc.resourceScope = "Cluster" then sconfig.namespace else reqc.namespace

/-- A long message is trimmed, in bytes. -/
def trimMessage (tmpMessage : String) : ByteArray :=
  if tmpMessage.utf8ByteSize > 1024 then
    tmpMessage.toUTF8.extract 0 950 ++
      " ... Trimmed. `Event.Message` can have 1024 chars at maximum.".toUTF8
  else tmpMessage.toUTF8

/-- No message is too long for an event. -/
theorem size_trimMessage_le (tmpMessage : String) : (trimMessage tmpMessage).size ≤ 1024 := by
  unfold trimMessage
  split
  · rw [ByteArray.size_append, ByteArray.size_extract]
    have hnote : " ... Trimmed. `Event.Message` can have 1024 chars at maximum.".toUTF8.size = 61 :=
      rfl
    omega
  · rename_i hshort
    exact Nat.le_of_not_lt hshort

/-- Where a request is counted. -/
@[reducible] def evtKey (reqc : ReqContext) (sconfig : ShieldConfig) (allow : Bool) : ReportKey :=
  .event (evtNamespace reqc sconfig) (evtName reqc allow)

section Report

variable [Outside] (sconfig : ShieldConfig) (iShieldCRName : String) (reqc : ReqContext)
  (ctx : CheckContext) (denyRSP : Option ResourceSigningProfile)

/-- The event that is created if there is none. -/
def newEvent (now : String) : EventObject where
  annotations := GoMap.writes ∅ [("integrityshield.io/eventType", "verify-result"),
    ("integrityshield.io/eventResult", resultStr ctx.allow)]
  involvedObject :=
    if reqc.resourceScope = "Cluster" then
      ⟨sconfig.namespace, "apis.integrityshield.io/v1alpha1", "IntegrityShield", iShieldCRName⟩
    else
      ⟨reqc.namespace, groupVersionString reqc.apiGroup reqc.apiVersion, reqc.kind, reqc.name⟩
  type := "IntegrityShield"
  component := "IntegrityShield"
  reportingController := "IntegrityShield"
  reportingInstance := evtName reqc ctx.allow
  action := evtName reqc ctx.allow
  firstTimestamp := now

/-- The message of an event. -/
def eventMessage : ByteArray :=
  let rspInfo := match denyRSP with
    | some rsp => " (RSP `namespace: " ++ rsp.namespace ++ ", name: " ++ rsp.name ++ "`)"
    | none => ""
  let responseMessage := "Result: " ++ resultStr ctx.allow ++ ", Reason: \"" ++ ctx.message ++
    "\"" ++ rspInfo ++ ", Request: " ++ reqInfo reqc
  trimMessage ("[IntegrityShieldEvent] " ++ responseMessage)

/-- What is written to an event, new or not. -/
def writeEvent (now : String) (evt : EventObject) : EventObject :=
  { evt with
    message := eventMessage reqc ctx denyRSP
    reason := ctx.reasonCode.code
    count := evt.count + 1
    eventTime := now
    lastTimestamp := now }

/-- `createOrUpdateEvent`. -/
def createOrUpdateEvent (now : String) : Client ReportKey.Content (Except Failure Unit) :=
  Client.upsert (evtKey reqc sconfig ctx.allow)
    (writeEvent reqc ctx denyRSP now (newEvent sconfig iShieldCRName reqc ctx now))
    (writeEvent reqc ctx denyRSP now)

/-- `updateRSPStatus`; what it returns is only logged.  A null entry of the summary ends it
with a fault. -/
def updateRSPStatus (rsp : Option ResourceSigningProfile) (errMsg now : String) :
    Client ReportKey.Content Unit :=
  match rsp with
  | none => return ()
  | some rsp => do
      let k : ReportKey := .profile rsp.namespace rsp.name
      match ← Client.get k with
      | .error _ => return ()
      | .ok rspOrg =>
          match rspOrg.updateStatus (newRequestFromReqContext reqc) errMsg now with
          | .error _ => return ()
          | .ok rspNew =>
              let _ ← Client.update k rspNew
              return ()

/-- The condition of `Handler.Report`. -/
def shouldReport : Bool :=
  !ctx.allow || (ctx.iShieldResource && checkIfIShieldAdminRequest reqc sconfig)

/-- `Handler.Report`. -/
def report (now : String) : Client ReportKey.Content Unit :=
  if shouldReport sconfig reqc ctx then do
    match ← createOrUpdateEvent sconfig iShieldCRName reqc ctx denyRSP now with
    | .error _ => return ()
    | .ok () => updateRSPStatus reqc denyRSP ctx.message now
  else return ()

end Report

/-! ## What the context says -/

section Verdict

variable [Outside]

/-- A request with the configuration it is handled with, what the loaders answer, and the time of
the report. -/
structure Handled where
  config : ShieldConfig
  iShieldCRName : String := ""
  req : AdmissionRequest
  world : World
  now : String := ""

/-- What is known of a request when it is reported. -/
structure Verdict where
  reqc : ReqContext
  final : Stage
  response : AdmissionResponse

/-- `Handler.Run` up to the call of `Report`. -/
def Handled.decided (h : Handled) : Go Verdict := do
  let reqc ← newReqContext h.req
  let _ ← h.config.consoleLogEnabled reqc
  let checked ← Handler.check h.config reqc h.world (RunData.init h.config h.world.init) {}
  let final ← Handler.overwriteDecision h.config reqc h.world.overwrite checked
  let _ ← h.config.contextLogEnabled reqc
  return ⟨reqc, final, Handler.respond h.config reqc final h.world.now⟩

/-- A run that returns has been reported before it returned. -/
theorem decided_of_run {h : Handled} {r : Handler.RunResult}
    (hrun : Handler.run h.config h.req h.world = .ok r) :
    ∃ reqc, h.decided = .ok ⟨reqc, r.final, r.response⟩ := by
  obtain ⟨reqc, hreqc, hrun⟩ := Go.bind_eq_ok.1 hrun
  obtain ⟨entry, hentry, hrun⟩ := Go.bind_eq_ok.1 hrun
  obtain ⟨checked, hchecked, hrun⟩ := Go.bind_eq_ok.1 hrun
  obtain ⟨final, hfinal, hrun⟩ := Go.bind_eq_ok.1 hrun
  obtain ⟨context, hcontext, hrun⟩ := Go.bind_eq_ok.1 hrun
  obtain ⟨reset, -, hrun⟩ := Go.bind_eq_ok.1 hrun
  obtain ⟨exit, -, hrun⟩ := Go.bind_eq_ok.1 hrun
  cases hrun
  refine ⟨reqc, ?_⟩
  simp only [Handled.decided, hreqc, hentry, hchecked, hfinal, hcontext, bind, Except.bind, pure,
    Except.pure]

/-- A stage never blames a profile for a request about the shield's own resources. -/
def Stage.Blameless (s : Stage) : Prop :=
  s.ctx.iShieldResource = true → s.decision.denyRSP = none

variable {config : ShieldConfig} {reqc : ReqContext}

omit [Outside] in
theorem inScopeCheck_denyRSP {answers : RuleAnswers} {data : RunData} {ctx : CheckContext}
    {s : Stage} (h : inScopeCheck reqc config answers data ctx = .ok s) :
    s.decision.denyRSP = none := by
  rw [inScopeCheck] at h
  split_ifs at h
  · cases h
    rfl
  · cases h
    rfl
  · obtain ⟨ignored, -, h⟩ := Go.bind_eq_ok.1 h
    split_ifs at h
    · cases h
      rfl
    · cases h
      rfl

theorem formatCheck_denyRSP {data : RunData} {ctx : CheckContext} {s : Stage}
    (h : formatCheck reqc config data ctx = .ok s) : s.decision.denyRSP = none := by
  obtain ⟨⟨ok, msg⟩, -, h⟩ := Go.bind_eq_ok.1 h
  dsimp only at h
  split_ifs at h
  · cases h
    rfl
  · cases h
    rfl

omit [Outside] in
theorem iShieldResourceCheck_denyRSP {data : RunData} {ctx : CheckContext} {s : Stage}
    (h : iShieldResourceCheck reqc config data ctx = .ok s) : s.decision.denyRSP = none := by
  obtain ⟨condition, -, h⟩ := Go.bind_eq_ok.1 h
  obtain ⟨operatorResource, -, h⟩ := Go.bind_eq_ok.1 h
  obtain ⟨serverResource, -, h⟩ := Go.bind_eq_ok.1 h
  split_ifs at h
  · cases h
    rfl
  · obtain ⟨operatorReq, -, h⟩ := Go.bind_eq_ok.1 h
    split_ifs at h
    · cases h
      rfl
    · cases h
      rfl

omit [Outside] in
theorem deleteCheck_denyRSP (data : RunData) (ctx : CheckContext) :
    (deleteCheck reqc data ctx).decision.denyRSP = none := by
  unfold deleteCheck
  split
  · rfl
  · rfl

omit [Outside] in
theorem protectedCheck_denyRSP {answers : RuleAnswers} {data : RunData} {ctx : CheckContext}
    {s : Stage} {profiles : List ResourceSigningProfile}
    (h : protectedCheck reqc config answers data ctx = .ok (s, profiles)) :
    s.decision.denyRSP = none ∧ s.ctx.iShieldResource = ctx.iShieldResource := by
  unfold protectedCheck at h
  dsimp only at h
  split at h
  · cases h
    exact ⟨rfl, rfl⟩
  · obtain ⟨p, -, h⟩ := Go.bind_eq_ok.1 h
    split_ifs at h
    · cases h
      exact ⟨rfl, rfl⟩
    · cases h
      exact ⟨rfl, rfl⟩
    · cases h
      exact ⟨rfl, rfl⟩

/-- The profiles leave it as it is whose resource it is. -/
theorem checkProfiles_iShieldResource {answers : ℕ → ProfileAnswers} {i : ℕ}
    {profiles : List ResourceSigningProfile} {s s' : Stage}
    (h : Handler.checkProfiles config reqc answers i profiles s = .ok s') :
    s'.ctx.iShieldResource = s.ctx.iShieldResource := by
  induction profiles generalizing i s with
  | nil =>
      cases h
      rfl
  | cons prof rest ih =>
      obtain ⟨s₁, h₁, h⟩ := Go.bind_eq_ok.1 h
      obtain ⟨check, -, h₁⟩ := Go.bind_eq_ok.1 h₁
      have hsame : s₁.ctx.iShieldResource = s.ctx.iShieldResource := by
        cases h₁
        rfl
      split_ifs at h
      · exact (ih h).trans hsame
      · cases h
        exact hsame

/-- **A profile is never blamed for a request about the shield's own resources.** -/
theorem blameless_check {world : World} {data : RunData} {ctx : CheckContext} {s : Stage}
    (hctx : ctx.iShieldResource = false)
    (h : Handler.check config reqc world data ctx = .ok s) : s.Blameless := by
  obtain ⟨s₁, h₁, h⟩ := Go.bind_eq_ok.1 h
  obtain ⟨-, ⟨hs₁, -⟩ | ⟨hs₁, -⟩⟩ := inScopeCheck_eq_ok h₁
  · simp only [hs₁.isUndetermined] at h
    cases h
    exact fun _ => inScopeCheck_denyRSP h₁
  simp only [hs₁.isUndetermined, Bool.not_true, Bool.false_eq_true, if_false] at h
  obtain ⟨s₂, h₂, h⟩ := Go.bind_eq_ok.1 h
  obtain ⟨-, ⟨hs₂, -⟩ | ⟨hs₂, -⟩⟩ := formatCheck_eq_ok h₂
  · simp only [hs₂.isUndetermined] at h
    cases h
    exact fun _ => formatCheck_denyRSP h₂
  simp only [hs₂.isUndetermined, Bool.not_true, Bool.false_eq_true, if_false] at h
  obtain ⟨s₃, h₃, h⟩ := Go.bind_eq_ok.1 h
  obtain ⟨-, ⟨-, hs₃⟩ | ⟨-, hs₃⟩⟩ := iShieldResourceCheck_eq_ok h₃
  · simp only [hs₃.isUndetermined] at h
    cases h
    exact fun _ => iShieldResourceCheck_denyRSP h₃
  simp only [hs₃.isUndetermined, Bool.not_true, Bool.false_eq_true, if_false] at h
  obtain ⟨-, ⟨-, hs₄⟩ | ⟨-, hs₄⟩⟩ := deleteCheck_eq reqc s₃.data s₃.ctx
  · simp only [hs₄.isUndetermined] at h
    cases h
    exact fun _ => deleteCheck_denyRSP s₃.data s₃.ctx
  simp only [hs₄.isUndetermined, Bool.not_true, Bool.false_eq_true, if_false] at h
  obtain ⟨⟨s₅, profiles⟩, h₅, h⟩ := Go.bind_eq_ok.1 h
  obtain ⟨hdeny, hsame⟩ := protectedCheck_denyRSP h₅
  obtain ⟨-, ⟨hs₅, -⟩ | ⟨hs₅, -, -⟩⟩ := protectedCheck_eq_ok h₅
  · simp only [hs₅.isUndetermined] at h
    cases h
    exact fun _ => hdeny
  simp only [hs₅, Bool.not_true, Bool.false_eq_true, if_false] at h
  obtain ⟨s₆, h₆, h⟩ := Go.bind_eq_ok.1 h
  -- only here a profile may be blamed, and no stage has seen a resource of the shield
  have hother : s₆.ctx.iShieldResource = false := by
    rw [checkProfiles_iShieldResource h₆, hsame, hs₄.2, hs₃.2, hs₂.2, hs₁.2, hctx]
  cases h
  intro hshield
  have hsettle : (Handler.settle s₆).ctx = s₆.ctx := by
    unfold Handler.settle
    split
    · rfl
    · rfl
  rw [hsettle, hother] at hshield
  cases hshield

omit [Outside] in
/-- The overwriting does not touch either. -/
theorem blameless_overwriteDecision {answer : Answer SignerConfigResource} {s s' : Stage}
    (h : Handler.overwriteDecision config reqc answer s = .ok s') (hs : s.Blameless) :
    s'.Blameless := by
  obtain ⟨isBreakGlass, -, h⟩ := Go.bind_eq_ok.1 h
  dsimp only at h
  split_ifs at h
  · cases h
    exact hs
  · cases h
    exact hs
  · cases h
    exact hs
  · cases h
    exact hs

/-- **The report goes by the answer.**  The context that a request is reported with says what it
is answered, and blames no profile for a request about the shield's own resources. -/
theorem context_of_decided {h : Handled} {d : Verdict} (hd : h.decided = .ok d) :
    d.final.ctx.allow = d.response.allowed ∧ d.final.Blameless := by
  obtain ⟨reqc, -, hd⟩ := Go.bind_eq_ok.1 hd
  obtain ⟨entry, -, hd⟩ := Go.bind_eq_ok.1 hd
  obtain ⟨checked, hchecked, hd⟩ := Go.bind_eq_ok.1 hd
  obtain ⟨final, hfinal, hd⟩ := Go.bind_eq_ok.1 hd
  obtain ⟨context, -, hd⟩ := Go.bind_eq_ok.1 hd
  cases hd
  obtain ⟨-, hdecides⟩ := overwriteDecision_eq_ok (check_eq_ok hchecked) hfinal
  exact ⟨(respond_allowed h.config reqc hdecides h.world.now).1.symm,
    blameless_overwriteDecision hfinal (blameless_check rfl hchecked)⟩

/-- The event that a decided request is counted in. -/
def Handled.reportedAs (h : Handled) : Option ReportKey :=
  match h.decided with
  | .error _ => none
  | .ok d =>
      if !d.response.allowed ||
          (d.final.ctx.iShieldResource && checkIfIShieldAdminRequest d.reqc h.config) then
        some (evtKey d.reqc h.config d.response.allowed)
      else none

/-- The denial that a request is because of a profile. -/
def Handled.denialBy (h : Handled) («namespace» name : String) : Option Denial :=
  match h.decided with
  | .error _ => none
  | .ok d =>
      match d.final.decision.denyRSP with
      | none => none
      | some rsp =>
          if d.response.allowed = false ∧ rsp.namespace = «namespace» ∧ rsp.name = name then
            some ⟨newRequestFromReqContext d.reqc, d.final.ctx.message, h.now⟩
          else none

/-- A request and its report. -/
def Handled.serve (h : Handled) : Client ReportKey.Content Unit :=
  match h.decided with
  | .error _ => return ()
  | .ok d => report h.config h.iShieldCRName d.reqc d.final.ctx d.final.decision.denyRSP h.now

/-- Requests one after the other. -/
def serveAll : List Handled → Client ReportKey.Content Unit
  | [] => return ()
  | h :: rest => do
      h.serve
      serveAll rest

end Verdict

/-! ## What the reports leave -/

section Reports

variable [Outside] {srv : ObjectStore.Server ReportKey.Content} {s : Session ReportKey.Content}

/-- The count of an event; one that is not there has counted nothing. -/
def eventCount (store : Store ReportKey.Content) («namespace» name : String) : ℤ :=
  match store (.event «namespace» name) with
  | some evt => evt.count
  | none => 0

omit [Outside] in
theorem eventCount_update (store : Store ReportKey.Content) (ns ns' name name' : String)
    (evt : EventObject) :
    eventCount (Function.update store (.event ns' name') (some evt)) ns name =
      if ReportKey.event ns' name' = .event ns name then evt.count
      else eventCount store ns name := by
  by_cases hkey : ReportKey.event ns' name' = .event ns name
  · rw [if_pos hkey]
    cases hkey
    rw [eventCount, Function.update_self]
  · rw [if_neg hkey, eventCount, Function.update_of_ne (Ne.symm hkey)]
    rfl

variable {sconfig : ShieldConfig} {iShieldCRName : String} {reqc : ReqContext}
  {ctx : CheckContext} {denyRSP : Option ResourceSigningProfile} {now : String}

theorem requests_createOrUpdateEvent :
    (createOrUpdateEvent sconfig iShieldCRName reqc ctx denyRSP now).Requests fun r =>
      r.key = evtKey reqc sconfig ctx.allow :=
  Client.requests_upsert fun _ hr => hr

omit [Outside] in
theorem requests_updateRSPStatus {rsp : Option ResourceSigningProfile} {errMsg : String} :
    (updateRSPStatus reqc rsp errMsg now).Requests fun r =>
      ∃ p, rsp = some p ∧ r.key = .profile p.namespace p.name := by
  cases rsp with
  | none => exact Client.requests_pure _
  | some rsp =>
      refine Client.requests_bind (Client.requests_request ⟨rsp, rfl, rfl⟩) fun found => ?_
      cases found with
      | error e => exact Client.requests_pure _
      | ok rspOrg =>
          cases hstatus : rspOrg.updateStatus (newRequestFromReqContext reqc) errMsg now with
          | error e =>
              simp only [hstatus]
              exact Client.requests_pure _
          | ok rspNew =>
              simp only [hstatus]
              exact Client.requests_bind (Client.requests_request ⟨rsp, rfl, rfl⟩) fun _ =>
                Client.requests_pure _

/-- One more is counted. -/
theorem run_createOrUpdateEvent (hkeeps : ∀ k old a, srv.persist k old a = a)
    (hidle : s.Always Turn.Idle) :
    let after := (createOrUpdateEvent sconfig iShieldCRName reqc ctx denyRSP now).run srv s
    after.1 = .ok () ∧ ∀ ns name, eventCount after.2.store ns name =
      eventCount s.store ns name +
        if evtKey reqc sconfig ctx.allow = .event ns name then 1 else 0 := by
  obtain ⟨hok, hstore⟩ := Client.run_upsert_of_idle (evtKey reqc sconfig ctx.allow)
    (writeEvent reqc ctx denyRSP now (newEvent sconfig iShieldCRName reqc ctx now))
    (writeEvent reqc ctx denyRSP now) hidle srv
  refine ⟨hok, fun ns name => ?_⟩
  have hcount : ((s.store (evtKey reqc sconfig ctx.allow)).elim
      (writeEvent reqc ctx denyRSP now (newEvent sconfig iShieldCRName reqc ctx now))
      (writeEvent reqc ctx denyRSP now)).count =
        eventCount s.store (evtNamespace reqc sconfig) (evtName reqc ctx.allow) + 1 := by
    unfold eventCount
    cases s.store (evtKey reqc sconfig ctx.allow) with
    | none => rfl
    | some evt => rfl
  rw [createOrUpdateEvent, hstore, hkeeps, eventCount_update]
  split
  · rename_i hkey
    cases hkey
    rw [hcount]
  · rw [add_zero]

omit [Outside] in
/-- The denial is put down. -/
theorem run_updateRSPStatus (hkeeps : ∀ k old a, srv.persist k old a = a)
    (hidle : s.Always Turn.Idle) {rsp : ResourceSigningProfile} {errMsg : String}
    {status : ResourceSigningProfileStatus} {done : List Denial}
    (hstored : s.store (.profile rsp.namespace rsp.name) = some status)
    (hrecords : Records status done) :
    ∃ status', ((updateRSPStatus reqc (some rsp) errMsg now).run srv s).2.store
        (.profile rsp.namespace rsp.name) = some status' ∧
      Records status' (done ++ [⟨newRequestFromReqContext reqc, errMsg, now⟩]) := by
  obtain ⟨status', hstatus, hrecords'⟩ :=
    hrecords.updateStatus ⟨newRequestFromReqContext reqc, errMsg, now⟩
  refine ⟨status', ?_, hrecords'⟩
  obtain ⟨hget, hstore⟩ :=
    Session.ask_of_idle (hidle 0) srv (.get (.profile rsp.namespace rsp.name))
  rw [srv.answer_isGet rfl] at hstore
  rw [srv.answer_get_some hstored] at hget
  obtain ⟨-, hupdated⟩ := Session.ask_of_idle (hidle.ask srv _ 0) srv
    (.update (.profile rsp.namespace rsp.name) status')
  rw [hstore, srv.answer_update_some hstored, hkeeps] at hupdated
  simp only [updateRSPStatus, Client.run_bind, Client.run_get, hget, hstatus]
  exact (congrFun hupdated _).trans (Function.update_self ..)

/-- The event is written first, and then the status. -/
theorem run_report (hkeeps : ∀ k old a, srv.persist k old a = a) (hidle : s.Always Turn.Idle) :
    (report sconfig iShieldCRName reqc ctx denyRSP now).run srv s =
      if shouldReport sconfig reqc ctx then
        (updateRSPStatus reqc denyRSP ctx.message now).run srv
          ((createOrUpdateEvent sconfig iShieldCRName reqc ctx denyRSP now).run srv s).2
      else ((), s) := by
  unfold report
  split
  · rw [Client.run_bind, (run_createOrUpdateEvent hkeeps hidle).1]
  · rfl

omit [Outside] in
/-- The status of a profile is no event. -/
theorem eventCount_updateRSPStatus (hidle : s.Always Turn.Idle)
    {rsp : Option ResourceSigningProfile} {errMsg : String} (ns name : String) :
    eventCount ((updateRSPStatus reqc rsp errMsg now).run srv s).2.store ns name =
      eventCount s.store ns name := by
  unfold eventCount
  rw [Client.store_of_requests (requests_updateRSPStatus.mono fun r hr => ?_)
    fun n store => congrFun ((hidle n).2 store) _]
  obtain ⟨p, -, hkey⟩ := hr
  right
  rw [hkey]
  exact fun h => by cases h

theorem reportedAs_of_decided {h : Handled} {d : Verdict} (hd : h.decided = .ok d) :
    h.reportedAs =
      if shouldReport h.config d.reqc d.final.ctx then
        some (evtKey d.reqc h.config d.final.ctx.allow)
      else none := by
  simp only [Handled.reportedAs, hd, shouldReport, (context_of_decided hd).1]

/-- The report of a request that was decided. -/
theorem run_serve (hkeeps : ∀ k old a, srv.persist k old a = a) (hidle : s.Always Turn.Idle)
    {h : Handled} {d : Verdict} (hd : h.decided = .ok d) :
    h.serve.run srv s =
      if shouldReport h.config d.reqc d.final.ctx then
        (updateRSPStatus d.reqc d.final.decision.denyRSP d.final.ctx.message h.now).run srv
          ((createOrUpdateEvent h.config h.iShieldCRName d.reqc d.final.ctx
            d.final.decision.denyRSP h.now).run srv s).2
      else ((), s) := by
  simp only [Handled.serve, hd]
  exact run_report hkeeps hidle

/-- A request is counted where it is reported, and nowhere else. -/
theorem eventCount_serve (hkeeps : ∀ k old a, srv.persist k old a = a)
    (hidle : s.Always Turn.Idle) (h : Handled) (ns name : String) :
    eventCount (h.serve.run srv s).2.store ns name =
      eventCount s.store ns name + if h.reportedAs = some (.event ns name) then 1 else 0 := by
  cases hd : h.decided with
  | error e => simp [Handled.serve, Handled.reportedAs, hd]
  | ok d =>
      rw [run_serve hkeeps hidle hd, reportedAs_of_decided hd]
      by_cases hreport : shouldReport h.config d.reqc d.final.ctx = true
      · rw [if_pos hreport, if_pos hreport, eventCount_updateRSPStatus (Client.always_run _ hidle),
          (run_createOrUpdateEvent hkeeps hidle).2]
        simp only [Option.some.injEq]
      · rw [if_neg hreport, if_neg hreport]
        simp

/-- A request with a profile to blame is reported exactly if it is denied. -/
theorem shouldReport_of_denyRSP {h : Handled} {d : Verdict} (hd : h.decided = .ok d)
    {rsp : ResourceSigningProfile} (hrsp : d.final.decision.denyRSP = some rsp) :
    shouldReport h.config d.reqc d.final.ctx = !d.response.allowed := by
  obtain ⟨hallow, hblameless⟩ := context_of_decided hd
  have hother : d.final.ctx.iShieldResource = false := by
    by_contra hshield
    cases (hblameless (Bool.eq_true_of_not_eq_false hshield)).symm.trans hrsp
  rw [shouldReport, hother, hallow, Bool.false_and, Bool.or_false]

/-- An event is no profile. -/
theorem profile_createOrUpdateEvent (hidle : s.Always Turn.Idle) (ns name : String) :
    ((createOrUpdateEvent sconfig iShieldCRName reqc ctx denyRSP now).run srv s).2.store
      (.profile ns name) = s.store (.profile ns name) := by
  refine Client.store_of_requests (requests_createOrUpdateEvent.mono fun r hr => ?_)
    fun n store => congrFun ((hidle n).2 store) _
  exact Or.inr (hr ▸ fun h => by cases h)

omit [Outside] in
/-- Only the profile to blame is written. -/
theorem profile_updateRSPStatus (hidle : s.Always Turn.Idle)
    {rsp : Option ResourceSigningProfile} {errMsg ns name : String}
    (hother : ∀ p, rsp = some p → ¬(p.namespace = ns ∧ p.name = name)) :
    ((updateRSPStatus reqc rsp errMsg now).run srv s).2.store (.profile ns name) =
      s.store (.profile ns name) := by
  refine Client.store_of_requests (requests_updateRSPStatus.mono fun r hr => ?_)
    fun n store => congrFun ((hidle n).2 store) _
  obtain ⟨p, hp, hkey⟩ := hr
  refine Or.inr fun h => hother p hp ?_
  rw [hkey] at h
  cases h
  exact ⟨rfl, rfl⟩

/-- A request that is not denied because of a profile leaves its status as it is. -/
theorem profile_serve (hkeeps : ∀ k old a, srv.persist k old a = a) (hidle : s.Always Turn.Idle)
    {h : Handled} {ns name : String} (hdenial : h.denialBy ns name = none) :
    (h.serve.run srv s).2.store (.profile ns name) = s.store (.profile ns name) := by
  cases hd : h.decided with
  | error e =>
      simp only [Handled.serve, hd]
      rfl
  | ok d =>
      rw [run_serve hkeeps hidle hd]
      split
      · rename_i hreport
        rw [profile_updateRSPStatus (Client.always_run _ hidle) fun rsp hrsp hkey => ?_,
          profile_createOrUpdateEvent hidle]
        -- a report with a profile to blame is one of a denial
        have hdenied : d.response.allowed = false := by
          rw [shouldReport_of_denyRSP hd hrsp] at hreport
          simpa using hreport
        simp [Handled.denialBy, hd, hrsp, hdenied, hkey] at hdenial
      · rfl

theorem exists_of_denialBy {h : Handled} {ns name : String} {denial : Denial}
    (hdenial : h.denialBy ns name = some denial) :
    ∃ (d : Verdict) (rsp : ResourceSigningProfile), h.decided = .ok d ∧
      d.final.decision.denyRSP = some rsp ∧ d.response.allowed = false ∧
      rsp.namespace = ns ∧ rsp.name = name ∧
      denial = ⟨newRequestFromReqContext d.reqc, d.final.ctx.message, h.now⟩ := by
  cases hd : h.decided with
  | error e => simp [Handled.denialBy, hd] at hdenial
  | ok d =>
      cases hrsp : d.final.decision.denyRSP with
      | none => simp [Handled.denialBy, hd, hrsp] at hdenial
      | some rsp =>
          simp only [Handled.denialBy, hd, hrsp, Option.ite_none_right_eq_some,
            Option.some.injEq] at hdenial
          obtain ⟨⟨hdenied, hns, hname⟩, hdenial⟩ := hdenial
          exact ⟨d, rsp, rfl, hrsp, hdenied, hns, hname, hdenial.symm⟩

/-- A denial is put down in the status of the profile it is because of, and nowhere else. -/
theorem records_serve (hkeeps : ∀ k old a, srv.persist k old a = a)
    (hidle : s.Always Turn.Idle) (h : Handled) {ns name : String}
    {status : ResourceSigningProfileStatus} {done : List Denial}
    (hstored : s.store (.profile ns name) = some status) (hrecords : Records status done) :
    ∃ status', (h.serve.run srv s).2.store (.profile ns name) = some status' ∧
      Records status' (done ++ (h.denialBy ns name).toList) := by
  cases hdenial : h.denialBy ns name with
  | none =>
      refine ⟨status, (profile_serve hkeeps hidle hdenial).trans hstored, ?_⟩
      rw [Option.toList_none, List.append_nil]
      exact hrecords
  | some denial =>
      obtain ⟨d, rsp, hd, hrsp, hdenied, rfl, rfl, rfl⟩ := exists_of_denialBy hdenial
      have hreport : shouldReport h.config d.reqc d.final.ctx = true := by
        rw [shouldReport_of_denyRSP hd hrsp, hdenied, Bool.not_false]
      rw [run_serve hkeeps hidle hd, if_pos hreport, hrsp]
      exact run_updateRSPStatus hkeeps (Client.always_run _ hidle)
        ((profile_createOrUpdateEvent hidle ..).trans hstored) hrecords

/-- **What is in the cluster is the history of the answers.**  After any number of requests, one
after the other, each event has counted the requests that were denied, and those of the admin
about the shield's own resources, under the names of their result, operation, kind and object; and
the status of each profile is the record of the requests that were denied because of it, in
order. -/
theorem denials_recorded (srv : ObjectStore.Server ReportKey.Content)
    (hkeeps : ∀ k old a, srv.persist k old a = a) (s : Session ReportKey.Content)
    (hidle : s.Always Turn.Idle) (requests : List Handled) :
    let after := ((serveAll requests).run srv s).2.store
    (∀ ns name, eventCount after ns name = eventCount s.store ns name +
      requests.countP fun h => decide (h.reportedAs = some (.event ns name))) ∧
    ∀ ns name status done, s.store (.profile ns name) = some status → Records status done →
      ∃ status', after (.profile ns name) = some status' ∧
        Records status' (done ++ requests.filterMap fun h => h.denialBy ns name) := by
  induction requests generalizing s with
  | nil =>
      refine ⟨fun ns name => (add_zero _).symm, fun ns name status done hstored hrecords => ?_⟩
      exact ⟨status, hstored, by simpa using hrecords⟩
  | cons h rest ih =>
      obtain ⟨hevents, hprofiles⟩ := ih (h.serve.run srv s).2 (Client.always_run _ hidle)
      simp only [serveAll, Client.run_bind]
      refine ⟨fun ns name => ?_, fun ns name status done hstored hrecords => ?_⟩
      · rw [hevents ns name, eventCount_serve hkeeps hidle h ns name, List.countP_cons]
        by_cases hreported : h.reportedAs = some (.event ns name)
        · simp only [hreported, decide_true, if_true]
          omega
        · simp only [hreported, decide_false, if_false, Bool.false_eq_true]
          omega
      · obtain ⟨status₁, hstored₁, hrecords₁⟩ := records_serve hkeeps hidle h hstored hrecords
        obtain ⟨status₂, hstored₂, hrecords₂⟩ := hprofiles ns name status₁ _ hstored₁ hrecords₁
        refine ⟨status₂, hstored₂, ?_⟩
        cases hdenial : h.denialBy ns name with
        | none => simpa [hdenial] using hrecords₂
        | some denial => simpa [hdenial] using hrecords₂

end Reports

/-! A request without a signature, for a profile that has denied nothing yet. -/

def unsignedRequest : Handled where
  config := guardedConfig
  req := malloryCreates "secure" "cm"
  world := guardedWorld []

def unreportedStore : Store ReportKey.Content :=
  Function.update (fun _ => none) (.profile "secure" "") (some ({} : ResourceSigningProfileStatus))

theorem denials_recorded_unsigned :
    letI := Outside.silent
    let after := ((serveAll [unsignedRequest, unsignedRequest]).run ⟨fun _ _ a => a⟩
      { store := unreportedStore, turns := fun _ => {} }).2.store
    eventCount after "secure" "ishield-deny-create-configmap-cm" = 2 ∧
      ∃ status : ResourceSigningProfileStatus,
        after (.profile "secure" "") = some status ∧ status.denyCount = 2 := by
  intro after
  obtain ⟨hevents, hprofiles⟩ := @denials_recorded Outside.silent ⟨fun _ _ a => a⟩
    (fun _ _ _ => rfl) { store := unreportedStore, turns := fun _ => {} }
    (fun _ => ⟨rfl, fun _ => rfl⟩) [unsignedRequest, unsignedRequest]
  let _ := Outside.silent
  have hcount : ([unsignedRequest, unsignedRequest].countP fun h => decide (h.reportedAs =
      some (.event "secure" "ishield-deny-create-configmap-cm"))) = 2 := by decide +kernel
  have hlength : ([unsignedRequest, unsignedRequest].filterMap fun h =>
      h.denialBy "secure" "").length = 2 := by decide +kernel
  obtain ⟨status, hstored, hrecords⟩ := hprofiles "secure" "" {} [] rfl Records.empty
  refine ⟨?_, status, hstored, ?_⟩
  · rw [hevents, hcount]
    rfl
  · rw [hrecords.denyCount, List.nil_append, hlength]
    rfl

end Shield
end IntegrityShield
