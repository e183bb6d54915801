/-
# The handler of a request

`shield/pkg/shield/handler.go`, `checkFunctions.go`, `checkUtils.go`,
`checkcontext.go`, `decisionResult.go` and the first half of `utilPatch.go`.

`Handler.Check` runs six stages, each of which may decide; the last one is a
loop over the profiles that protect the request.  Every stage writes its decision
and, next to it, the context of the check, from which the patch, the log and the
events are made.  `Handler.Run` then overwrites a decision that is not to allow,
in detect mode and under break glass.

The loaders are asked at several points of a run; what they are answered at each
is an argument (`World`).  Writing logs, events and the status of a profile has no
effect on the answer and is left out, but the conditions that decide on it stay
where they may follow a nil pointer.
-/

import IntegrityShield.Shield.Mutation
import IntegrityShield.Shield.RunData
import IntegrityShield.Shield.Sign
import IntegrityShield.Shield.Validation

namespace IntegrityShield
namespace Shield

open Common Apis Mapnode

/-- `DecisionType`. -/
inductive DecisionType where
  | undetermined
  | allow
  | deny
  | error
deriving DecidableEq

/-- `DecisionResult`. -/
structure DecisionResult where
  type : DecisionType
  verified : Bool := false
  reasonCode : ReasonCode := .internal
  message : String := ""
  denyRSP : Option ResourceSigningProfile := none

/-- `undeterminedDescision`. -/
def undeterminedDescision : DecisionResult := { type := .undetermined }

namespace DecisionResult

/-- `DecisionResult.isAllowed`. -/
def isAllowed (self : DecisionResult) : Bool := self.type == .allow

/-- `DecisionResult.isUndetermined`. -/
def isUndetermined (self : DecisionResult) : Bool := self.type == .undetermined

/-- `DecisionResult.isErrorOccurred`. -/
def isErrorOccurred (self : DecisionResult) : Bool := self.type == .error

end DecisionResult

/-- `CheckContext`, with the values of `InitCheckContext`. -/
structure CheckContext where
  detectOnlyModeEnabled : Bool := false
  breakGlassModeEnabled : Bool := false
  isProtected : Bool := false
  iShieldResource : Bool := false
  allow : Bool := false
  verified : Bool := false
  message : String := ""
  signatureEvalResult : SignatureEvalResult := {}
  mutationEvalResult : MutationEvalResult := {}
  reasonCode : ReasonCode := .internal

/-- What a stage of the check leaves: its decision, and the context and the data,
which it may have changed. -/
structure Stage where
  decision : DecisionResult
  ctx : CheckContext
  data : RunData

/-- What the loaders are answered for one profile. -/
structure ProfileAnswers where
  signerConfig : Answer SignerConfigResource := {}
  resSigList : Option (List (Option ResourceSignature)) := none

/-- What the loaders are answered in a run: at its start, in the scope check, in
the protection check, for the profiles in turn, and when the decision is
overwritten; and the time at which a patch is made. -/
structure World where
  init : RuleAnswers := {}
  scope : RuleAnswers := {}
  protect : RuleAnswers := {}
  profile : ℕ → ProfileAnswers := fun _ => {}
  overwrite : Answer SignerConfigResource := {}
  now : String := ""

/-- `getRequestNamespaceFromReqContext`. -/
def getRequestNamespaceFromReqContext (reqc : ReqContext) : String :=
  if reqc.kind ≠ "Namespace" ∧ reqc.namespace ≠ "" then reqc.namespace else ""

/-- `checkIfInScopeNamespace`. -/
def checkIfInScopeNamespace (reqNamespace : String) (config : ShieldConfig) : Bool :=
  match config.inScopeNamespaceSelector with
  | none => false
  | some inScopeNSSelector => inScopeNSSelector.matchNamespaceName reqNamespace

/-- `checkIfProfileTargetNamespace`, once the table has been got. -/
def checkIfProfileTargetNamespace (reqNamespace : String) (data : RunData) : Bool :=
  match data.ruleTable with
  | none => false
  | some ruleTable => ruleTable.checkIfTargetNamespace reqNamespace

/-- `checkIfUnprocessedInIShield`. -/
def checkIfUnprocessedInIShield (reqc : ReqContext) (config : ShieldConfig) : Go Bool :=
  config.ignore.anyM fun d => RequestPattern.matchLoose (some d) reqc.map

/-- `checkIfIShieldAdminRequest`. -/
def checkIfIShieldAdminRequest (reqc : ReqContext) (config : ShieldConfig) : Bool :=
  let groupMatched := decide (config.iShieldAdminUserGroup ≠ "") &&
    matchPatternWithArray config.iShieldAdminUserGroup reqc.userGroups
  let userMatched := decide (config.iShieldAdminUserName ≠ "") &&
    matchPattern config.iShieldAdminUserName reqc.userName
  let olmMatched := matchPattern
    "system:serviceaccount:openshift-operator-lifecycle-manager:olm-operator-serviceaccount"
    reqc.userName
  groupMatched || (userMatched || olmMatched)

/-- `checkIfIShieldServerRequest`. -/
def checkIfIShieldServerRequest (reqc : ReqContext) (config : ShieldConfig) : Bool :=
  matchPattern config.iShieldServerUserName reqc.userName

/-- `checkIfIShieldOperatorRequest`. -/
def checkIfIShieldOperatorRequest (reqc : ReqContext) (config : ShieldConfig) : Go Bool := do
  let condition ← Go.deref config.iShieldResourceCondition
  return exactMatch condition.operatorServiceAccount reqc.userName

/-- `checkIfGarbageCollectorRequest`. -/
def checkIfGarbageCollectorRequest (reqc : ReqContext) : Bool :=
  reqc.userName == "system:serviceaccount:kube-system:generic-garbage-collector"

/-- `checkIfSpecialServiceAccountRequest`. -/
def checkIfSpecialServiceAccountRequest (reqc : ReqContext) : Bool :=
  Strings.hasPrefix reqc.userName "system:serviceaccount:kube-" ||
  Strings.hasPrefix reqc.userName "system:serviceaccount:openshift-" ||
  Strings.hasPrefix reqc.userName "system:serviceaccount:openshift:" ||
  Strings.hasPrefix reqc.userName "system:serviceaccount:open-cluster-" ||
  Strings.hasPrefix reqc.userName "system:serviceaccount:olm:"

/-- `getBreakGlassConditions`. -/
def getBreakGlassConditions (signerConfig : Option SignerConfigResource) :
    Go (List BreakGlassCondition) :=
  match signerConfig with
  | none => .ok []
  | some resource => do
      let config ← Go.deref resource.config
      return config.breakGlass

/-- Whether one of the conditions lifts the check of a request. -/
def breakGlassApplies (reqc : ReqContext) (conditions : List BreakGlassCondition) : Bool :=
  if reqc.resourceScope = "Namespaced" then
    conditions.any fun d =>
      (d.scope == "" || d.scope == "Namespaced") && d.namespaces.any (reqc.namespace == ·)
  else conditions.any fun d => d.scope == "Cluster"

/-- `checkIfBreakGlassEnabled`. -/
def checkIfBreakGlassEnabled (reqc : ReqContext) (signerConfig : Option SignerConfigResource) :
    Go Bool :=
  breakGlassApplies reqc <$> getBreakGlassConditions signerConfig

/-- `checkIfDetectOnly`. -/
def checkIfDetectOnly (sconf : ShieldConfig) : Bool := sconf.mode == .detect

section Checks

variable [Outside] (reqc : ReqContext) (config : ShieldConfig)

/-- The ways a request is let through by `inScopeCheck`. -/
def outOfScope (data : RunData) (ctx : CheckContext) (msg : String) : Stage where
  decision := { type := .allow, reasonCode := .internal, message := msg }
  ctx := { ctx with allow := true, reasonCode := .internal, message := msg }
  data := data

/-- The first half of the condition of `inScopeCheck`.  Only if it holds is the
table got. -/
def asksTable : Bool :=
  let reqNamespace := getRequestNamespaceFromReqContext reqc
  decide (reqNamespace ≠ "") && !checkIfInScopeNamespace reqNamespace config

/-- The data of a run after the table has been got by `inScopeCheck`, or not. -/
def scopeData (answers : RuleAnswers) (data : RunData) : RunData :=
  if asksTable reqc config then data.getRuleTable config.namespace answers else data

/-- `inScopeCheck`. -/
def inScopeCheck (answers : RuleAnswers) (data : RunData) (ctx : CheckContext) : Go Stage := do
  let reqNamespace := getRequestNamespaceFromReqContext reqc
  let data := scopeData reqc config answers data
  if asksTable reqc config && !checkIfProfileTargetNamespace reqNamespace data then
    return outOfScope data ctx "this namespace is not monitored"
  else if reqc.dryRun then return outOfScope data ctx "request is dry run"
  else if ← checkIfUnprocessedInIShield reqc config then
    return outOfScope data ctx "request is not processed by IShield"
  else return ⟨undeterminedDescision, ctx, data⟩

/-- `formatCheck`. -/
def formatCheck (data : RunData) (ctx : CheckContext) : Go Stage := do
  let (ok, msg) ← validateResource reqc config.namespace
  if !ok then
    return {
      decision := { type := .deny, reasonCode := .validationFail, message := msg }
      ctx := { ctx with allow := false, reasonCode := .validationFail, message := msg }
      data := data }
  else return ⟨undeterminedDescision, ctx, data⟩

/-- The users `iShieldResourceCheck` permits for a resource of the operator, or of
the server. -/
def permittedUser (iShieldOperatorResource iShieldServerResource operatorReq : Bool) : Bool :=
  let adminReq := checkIfIShieldAdminRequest reqc config
  let serverReq := checkIfIShieldServerRequest reqc config
  let gcReq := checkIfGarbageCollectorRequest reqc
  let spSAReq := checkIfSpecialServiceAccountRequest reqc
  (iShieldOperatorResource && (adminReq || operatorReq || gcReq || spSAReq)) ||
    (iShieldServerResource && (operatorReq || serverReq || gcReq || spSAReq))

/-- `iShieldResourceCheck`. -/
def iShieldResourceCheck (data : RunData) (ctx : CheckContext) : Go Stage := do
  let condition ← Go.deref config.iShieldResourceCondition
  let iShieldOperatorResource ← condition.isOperatorResource reqc.resourceRef
  let iShieldServerResource ← condition.isServerResource reqc.resourceRef
  if !iShieldOperatorResource && !iShieldServerResource then
    return ⟨undeterminedDescision, ctx, data⟩
  let operatorReq ← checkIfIShieldOperatorRequest reqc config
  if permittedUser reqc config iShieldOperatorResource iShieldServerResource operatorReq then
    return {
      decision := {
        type := .allow
        verified := true
        reasonCode := .iShieldAdmin
        message := ReasonCode.iShieldAdmin.message }
      ctx := { ctx with
        iShieldResource := true
        allow := true
        verified := true
        reasonCode := .iShieldAdmin
        message := ReasonCode.iShieldAdmin.message }
      data := data }
  else
    return {
      decision := {
        type := .deny
        reasonCode := .blockIShieldResourceOperation
        message := ReasonCode.blockIShieldResourceOperation.message }
      ctx := { ctx with
        iShieldResource := true
        allow := false
        verified := false
        reasonCode := .blockIShieldResourceOperation
        message := ReasonCode.blockIShieldResourceOperation.message }
      data := data }

/-- `deleteCheck`. -/
def deleteCheck (data : RunData) (ctx : CheckContext) : Stage :=
  if reqc.isDeleteRequest then {
    decision := {
      type := .allow
      verified := true
      reasonCode := .skipDelete
      message := ReasonCode.skipDelete.message }
    ctx := { ctx with
      allow := true
      verified := true
      reasonCode := .skipDelete
      message := ReasonCode.skipDelete.message }
    data := data }
  else ⟨undeterminedDescision, ctx, data⟩

/-- The ways a request is let through by `protectedCheck`. -/
def unprotected (data : RunData) (ctx : CheckContext) (reasonCode : ReasonCode) : Stage where
  decision := { type := .allow, reasonCode := reasonCode, message := reasonCode.message }
  ctx := { ctx with
    allow := true
    verified := true
    isProtected := false
    reasonCode := reasonCode
    message := reasonCode.message }
  data := data

/-- `protectedCheck`, with the matched profiles. -/
def protectedCheck (answers : RuleAnswers) (data : RunData) (ctx : CheckContext) :
    Go (Stage × List ResourceSigningProfile) := do
  let data := data.getRuleTable config.namespace answers
  match data.ruleTable with
  | none => return (unprotected data ctx .notProtected, [])
  | some ruleTable =>
      let p ← ruleTable.checkIfProtected reqc.map
      if !p.isProtected then
        if p.ignoreMatched then return (unprotected data ctx .ignoreRuleMatched, [])
        else return (unprotected data ctx .notProtected, [])
      else
        return (⟨undeterminedDescision, { ctx with isProtected := true }, data⟩, p.matchedProfiles)

/-- The results of `singleProfileCheck`. -/
structure ProfileCheck where
  allowed : Bool
  evalReason : ReasonCode := .internal
  evalMessage : String := ""
  sigResult : Option SignatureEvalResult := none
  mutResult : Option MutationEvalResult := none

/-- The reason code of a signature that is not accepted, by the message. -/
def signatureReason (message : String) : ReasonCode :=
  if Strings.hasPrefix message ReasonCode.invalidSig.message then .invalidSig
  else if Strings.hasPrefix message ReasonCode.noValidKeyring.message then .noValidKeyring
  else if Strings.hasPrefix message ReasonCode.noMatchSignerConfig.message then
    .noMatchSignerConfig
  else if message = ReasonCode.noSig.message then .noSig
  else .error

/-- `mutResult.Checked && !mutResult.IsMutated`, for a mutation that was
evaluated. -/
def unmutated : Option MutationEvalResult → Bool
  | some mutResult => mutResult.checked && !mutResult.isMutated
  | none => false

/-- The mutation is evaluated for an update only. -/
def updateMutation (singleProfile : ResourceSigningProfile) : Go (Option MutationEvalResult) :=
  if reqc.isUpdateRequest then some <$> mutationEval reqc singleProfile else .ok none

/-- The evaluator `NewSignatureEvaluator` makes; it returns no error. -/
def newSignatureEvaluator (signerConfig : Option SignerConfig) : SignatureEvaluator where
  config := config
  signerConfig := signerConfig
  plugins := config.getEnabledPlugins

/-- `singleProfileCheck`.  Neither of the two evaluations returns an error. -/
def singleProfileCheck (singleProfile : ResourceSigningProfile)
    (sigConfRes : Option SignerConfigResource)
    (rsigList : Option (List (Option ResourceSignature))) : Go ProfileCheck := do
  let mutResult ← updateMutation reqc singleProfile
  if unmutated mutResult then
    return {
      allowed := true
      evalReason := .noMutation
      evalMessage := ReasonCode.noMutation.message
      mutResult := mutResult }
  let sigConfRes ← Go.deref sigConfRes
  let evaluator := newSignatureEvaluator config sigConfRes.config
  let sigResult ← evaluator.eval reqc rsigList singleProfile
  if sigResult.checked && sigResult.allow then
    return {
      allowed := true
      evalReason := .validSig
      evalMessage := ReasonCode.validSig.message
      sigResult := some sigResult
      mutResult := mutResult }
  match sigResult.error with
  | none => return { allowed := false, sigResult := some sigResult, mutResult := mutResult }
  | some error =>
      return {
        allowed := false
        evalReason := signatureReason error.makeMessage
        evalMessage := error.makeMessage
        sigResult := some sigResult
        mutResult := mutResult }

/-- What `resourceSigningProfileCheck` leaves of a profile's check. -/
def ProfileCheck.stage (check : ProfileCheck) (singleProfile : ResourceSigningProfile)
    (data : RunData) (ctx : CheckContext) : Stage where
  decision :=
    if check.allowed then {
      type := .allow
      verified := true
      reasonCode := check.evalReason
      message := check.evalMessage }
    else {
      type := .deny
      reasonCode := check.evalReason
      message := check.evalMessage
      denyRSP := some singleProfile }
  ctx := { ctx with
    allow := check.allowed
    verified := check.allowed || ctx.verified
    reasonCode := check.evalReason
    message := check.evalMessage
    signatureEvalResult := check.sigResult.getD ctx.signatureEvalResult
    mutationEvalResult := check.mutResult.getD ctx.mutationEvalResult }
  data := data

/-- The data of a run once the loaders have been asked for one profile. -/
def ProfileAnswers.loadInto (answers : ProfileAnswers) (data : RunData) : RunData :=
  (data.getSignerConfig answers.signerConfig).getResSigList answers.resSigList

/-- `resourceSigningProfileCheck`. -/
def resourceSigningProfileCheck (singleProfile : ResourceSigningProfile)
    (answers : ProfileAnswers) (data : RunData) (ctx : CheckContext) : Go Stage := do
  let data := answers.loadInto data
  let check ← singleProfileCheck reqc config singleProfile data.signerConfig data.resSigList
  return check.stage singleProfile data ctx

end Checks

section Response

def labelValueVerified : String := "verified"
def labelValueUnverified : String := "unverified"

/-- The arguments of `createJSONPatchBytes`. -/
structure PatchRequest where
  name : String
  reqJson : Bytes
  labels : Labels
  annotations : Labels
  deleteKeys : List String

/-- `AdmissionResponse`; the patch is given by what it is made from. -/
structure AdmissionResponse where
  allowed : Bool
  message : String
  patch : Option PatchRequest := none

/-- The label of `generatePatchBytes`, empty for none. -/
def verifyResultLabel (ctx : CheckContext) : String :=
  let sigResult := ctx.signatureEvalResult
  if sigResult.checked && sigResult.allow then labelValueVerified
  else if ctx.breakGlassModeEnabled && !(sigResult.checked && sigResult.allow) then
    labelValueUnverified
  else ""

/-- The annotations of `generatePatchBytes`. -/
def verifyAnnotations (ctx : CheckContext) (now : String) : Labels :=
  let sigResult := ctx.signatureEvalResult
  if verifyResultLabel ctx = labelValueVerified then
    GoMap.writes ∅ ([(lastVerifiedTimestampAnnotationKey, now)] ++
      (if sigResult.signerName ≠ "" then [(signedByAnnotationKey, sigResult.signerName)] else []) ++
      (if sigResult.resourceSignatureUID ≠ "" then
        [(resourceSignatureUIDAnnotationKey, sigResult.resourceSignatureUID)] else []))
  else ∅

/-- `generatePatchBytes`, up to the call of `createJSONPatchBytes`. -/
def generatePatchBytes (reqc : ReqContext) (ctx : CheckContext) (now : String) :
    Option PatchRequest :=
  if !ctx.allow then none
  else if verifyResultLabel ctx = "" then none
  else some {
    name := reqc.name
    reqJson := reqc.rawObject.getD ""
    labels := GoMap.writes ∅ [(resourceIntegrityLabelKey, verifyResultLabel ctx)]
    annotations := verifyAnnotations ctx now
    deleteKeys := [resourceIntegrityLabelKey, lastVerifiedTimestampAnnotationKey,
      signedByAnnotationKey, resourceSignatureUIDAnnotationKey] }

/-- `ReqContext.Info` of nil; a map is written with its keys in order. -/
def reqInfo [Outside] (reqc : ReqContext) : String :=
  let fields := [("kind", reqc.kind), ("name", reqc.name), ("namespace", reqc.namespace),
    ("operation", reqc.operation), ("request.uid", reqc.requestUid),
    ("scope", reqc.resourceScope), ("userName", reqc.userName)]
  ((Outside.jsonMarshal (.obj (fields.map fun f => (f.1, .scalar (.str f.2))))).toOption).getD ""

/-- `createAdmissionResponse`. -/
def createAdmissionResponse [Outside] (allowed : Bool) (msg : String) (reqc : ReqContext)
    (ctx : CheckContext) (conf : ShieldConfig) (now : String) : AdmissionResponse where
  allowed := allowed
  message := msg ++ " (Request: " ++ reqInfo reqc ++ ")"
  patch := if conf.patchEnabled reqc then generatePatchBytes reqc ctx now else none

end Response

namespace Handler

variable [Outside] (config : ShieldConfig) (reqc : ReqContext)

/-- The loop of `Handler.Check`: the first profile that does not allow ends it. -/
def checkProfiles (answers : ℕ → ProfileAnswers) :
    ℕ → List ResourceSigningProfile → Stage → Go Stage
  | _, [], s => .ok s
  | i, prof :: rest, s => do
      let s ← resourceSigningProfileCheck reqc config prof (answers i) s.data s.ctx
      if s.decision.isAllowed then checkProfiles answers (i + 1) rest s else return s

/-- The end of `Handler.Check`. -/
def settle (s : Stage) : Stage :=
  if s.decision.isUndetermined then
    { s with decision := {
        type := .undetermined
        reasonCode := .unexpected
        message := "IntegrityShield failed to decide a response for this request." } }
  else s

/-- `Handler.Check`. -/
def check (world : World) (data : RunData) (ctx : CheckContext) : Go Stage := do
  let s ← inScopeCheck reqc config world.scope data ctx
  if !s.decision.isUndetermined then return s
  let s ← formatCheck reqc config s.data s.ctx
  if !s.decision.isUndetermined then return s
  let s ← iShieldResourceCheck reqc config s.data s.ctx
  if !s.decision.isUndetermined then return s
  let s := deleteCheck reqc s.data s.ctx
  if !s.decision.isUndetermined then return s
  let (s, matchedProfiles) ← protectedCheck reqc config world.protect s.data s.ctx
  if !s.decision.isUndetermined then return s
  let s ← checkProfiles config reqc world.profile 0 matchedProfiles s
  return settle s

/-- The decision and the context of a request that is let through in spite of a
decision not to allow it. -/
def overwrite (s : Stage) (ctx : CheckContext) (reasonCode : ReasonCode) : Stage :=
  { s with
    decision := { s.decision with
      type := .allow
      verified := false
      message := reasonCode.message
      reasonCode := reasonCode }
    ctx := { ctx with allow := true, reasonCode := reasonCode, message := reasonCode.message } }

/-- `Handler.overwriteDecision`. -/
def overwriteDecision (answer : Answer SignerConfigResource) (s : Stage) : Go Stage := do
  let s := { s with data := s.data.getSignerConfig answer }
  let isBreakGlass ← checkIfBreakGlassEnabled reqc s.data.signerConfig
  let isDetectMode := checkIfDetectOnly config
  if !isBreakGlass && !isDetectMode then return s
  if !s.decision.isAllowed && isDetectMode then
    return overwrite s { s.ctx with detectOnlyModeEnabled := true } .detection
  else if !s.decision.isAllowed && isBreakGlass then
    return overwrite s { s.ctx with breakGlassModeEnabled := true } .breakGlass
  else return s

/-- `Handler.finalize`: whether the cache of the rule table is cleared. -/
def finalize (resp : AdmissionResponse) : Go Bool :=
  if resp.allowed then do
    let iShieldServer := checkIfIShieldServerRequest reqc config
    let iShieldOperator ← checkIfIShieldOperatorRequest reqc config
    if reqc.kind = "Namespace" then
      if reqc.isUpdateRequest then
        let mtResult ← mutationEval reqc {}
        return mtResult.isMutated
      else return true
    else
      return decide (reqc.kind = profileCustomResourceKind) && !iShieldServer && !iShieldOperator
  else return false

/-- The response to a decision. -/
def respond (s : Stage) (now : String) : AdmissionResponse :=
  if s.decision.isUndetermined then
    createAdmissionResponse false "IntegrityShield failed to decide the response for this request"
      reqc s.ctx config now
  else if s.decision.isErrorOccurred then
    createAdmissionResponse false s.decision.message reqc s.ctx config now
  else createAdmissionResponse s.decision.isAllowed s.decision.message reqc s.ctx config now

/-- What a run leaves: the decision of `Check`, the stage it was made into, the
response, and whether the cache of the rule table was cleared. -/
structure RunResult where
  checked : DecisionResult
  final : Stage
  response : AdmissionResponse
  resetRuleTableCache : Bool

/-- `Handler.Run`, after the context of the request has been made. -/
def runWith (world : World) : Go RunResult := do
  let _ ← config.consoleLogEnabled reqc
  let checked ← check config reqc world (RunData.init config world.init) {}
  let final ← overwriteDecision config reqc world.overwrite checked
  let response := respond config reqc final world.now
  let _ ← config.contextLogEnabled reqc
  let resetRuleTableCache ← finalize config reqc response
  let _ ← config.consoleLogEnabled reqc
  return ⟨checked.decision, final, response, resetRuleTableCache⟩

/-- `Handler.Run`. -/
def run (req : AdmissionRequest) (world : World) : Go RunResult := do
  let reqc ← newReqContext req
  runWith config reqc world

end Handler

end Shield
end IntegrityShield
