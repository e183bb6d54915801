/-
# Complete mediation

What `Handler.Run` answers, in terms of the request, the configuration and the
loaded data.

A stage that decides writes both its decision and the context, and the two agree
(`Stage.Allows`, `Stage.Denies`).  The stages are described one by one, the loop
over the profiles by induction, and the answer of the whole run is put together
from them.
-/

import IntegrityShield.Shield.Handler

namespace IntegrityShield
namespace Shield

open Common Apis Mapnode

/-- The stage lets the request through, in its decision and in the context. -/
structure Stage.Allows (s : Stage) : Prop where
  decision : s.decision.type = .allow
  ctx : s.ctx.allow = true

/-- The stage refuses the request, in its decision and in the context. -/
structure Stage.Denies (s : Stage) : Prop where
  decision : s.decision.type = .deny
  ctx : s.ctx.allow = false

/-- The stage decides for what is wanted. -/
def Stage.Decides (s : Stage) (admitted : Prop) : Prop :=
  s.Allows ∧ admitted ∨ s.Denies ∧ ¬admitted

section Conditions

variable [Outside] (config : ShieldConfig) (reqc : ReqContext)

/-- A namespace that is neither selected by the configuration nor a target of the
rule table. -/
def Unmonitored (data : RunData) : Prop :=
  getRequestNamespaceFromReqContext reqc ≠ "" ∧
  checkIfInScopeNamespace (getRequestNamespaceFromReqContext reqc) config = false ∧
  ∀ table, data.ruleTable = some table →
    getRequestNamespaceFromReqContext reqc ∉ table.namespaces

/-- Out of scope: `data` holds the table that the scope check saw. -/
def OutOfScope (data : RunData) : Prop :=
  Unmonitored config reqc data ∨ reqc.dryRun = true ∨
  ∃ d ∈ config.ignore, RequestPattern.matchLoose (some d) reqc.map = .ok true

/-- The format check passes. -/
def WellFormatted : Prop := ∃ msg, validateResource reqc config.namespace = .ok (true, msg)

/-- The resource is one of the operator's. -/
def OperatorResource : Prop :=
  ∃ condition, config.iShieldResourceCondition = some condition ∧
    condition.isOperatorResource reqc.resourceRef = .ok true

/-- The resource is one of the server's. -/
def ServerResource : Prop :=
  ∃ condition, config.iShieldResourceCondition = some condition ∧
    condition.isServerResource reqc.resourceRef = .ok true

/-- The resource is one of the shield's own. -/
def IShieldResource : Prop := OperatorResource config reqc ∨ ServerResource config reqc

/-- The user is the operator of the shield. -/
def OperatorUser : Prop := checkIfIShieldOperatorRequest reqc config = .ok true

/-- The user is one of those permitted for the resources of the operator. -/
def OperatorResourceUser : Prop :=
  checkIfIShieldAdminRequest reqc config = true ∨ OperatorUser config reqc ∨
  checkIfGarbageCollectorRequest reqc = true ∨ checkIfSpecialServiceAccountRequest reqc = true

/-- The user is one of those permitted for the resources of the server. -/
def ServerResourceUser : Prop :=
  OperatorUser config reqc ∨ checkIfIShieldServerRequest reqc config = true ∨
  checkIfGarbageCollectorRequest reqc = true ∨ checkIfSpecialServiceAccountRequest reqc = true

/-- The user is one of those permitted for the class of the resource. -/
def PermittedUser : Prop :=
  OperatorResource config reqc ∧ OperatorResourceUser config reqc ∨
  ServerResource config reqc ∧ ServerResourceUser config reqc

/-- A profile accepts an update without mutation, or a valid signature; `data`
holds the signer configuration and the signatures it was checked with. -/
def Accepts (data : RunData) (p : ResourceSigningProfile) : Prop :=
  (reqc.isUpdateRequest = true ∧
    ∃ m, mutationEval reqc p = .ok m ∧ m.checked = true ∧ m.isMutated = false) ∨
  ∃ signerConfig r, data.signerConfig = some signerConfig ∧
    (newSignatureEvaluator config signerConfig.config).eval reqc data.resSigList p = .ok r ∧
    r.checked = true ∧ r.allow = true

/-- The data of a run after the loaders have been asked for so many profiles. -/
def dataAfter (answers : ℕ → ProfileAnswers) (data : RunData) : ℕ → RunData
  | 0 => data
  | n + 1 => (answers n).loadInto (dataAfter answers data n)

/-- There is no rule table, or all the profiles that protect the request accept
it; `data` holds the table that the protection check saw. -/
def ProfilesAccept (answers : ℕ → ProfileAnswers) (data : RunData) : Prop :=
  data.ruleTable = none ∨
  ∃ table p, data.ruleTable = some table ∧ table.checkIfProtected reqc.map = .ok p ∧
    ∀ i profile, p.matchedProfiles[i]? = some profile →
      Accepts config reqc (dataAfter answers data (i + 1)) profile

/-- The request passes the check. -/
def Admitted (world : World) (data : RunData) : Prop :=
  let seen := scopeData reqc config world.scope data
  OutOfScope config reqc seen ∨
  WellFormatted config reqc ∧
    (IShieldResource config reqc ∧ PermittedUser config reqc ∨
     ¬IShieldResource config reqc ∧
      (reqc.isDeleteRequest = true ∨
       ProfilesAccept config reqc world.profile
         (seen.getRuleTable config.namespace world.protect)))

end Conditions

/-- A stage that decides nothing leaves the context as it was. -/
def Stage.PassesOn (s : Stage) (ctx : CheckContext) : Prop :=
  s.decision = undeterminedDescision ∧ s.ctx = ctx

theorem Stage.PassesOn.isUndetermined {s : Stage} {ctx : CheckContext} (h : s.PassesOn ctx) :
    s.decision.isUndetermined = true := by
  rw [h.1]
  rfl

theorem Stage.Allows.isUndetermined {s : Stage} (h : s.Allows) :
    s.decision.isUndetermined = false := by
  rw [DecisionResult.isUndetermined, h.decision]
  rfl

theorem Stage.Denies.isUndetermined {s : Stage} (h : s.Denies) :
    s.decision.isUndetermined = false := by
  rw [DecisionResult.isUndetermined, h.decision]
  rfl

theorem allows_outOfScope (data : RunData) (ctx : CheckContext) (msg : String) :
    (outOfScope data ctx msg).Allows := ⟨rfl, rfl⟩

section Checks

variable {config : ShieldConfig} {reqc : ReqContext}

theorem asksTable_iff : asksTable reqc config = true ↔
    getRequestNamespaceFromReqContext reqc ≠ "" ∧
    checkIfInScopeNamespace (getRequestNamespaceFromReqContext reqc) config = false := by
  simp [asksTable]

/-- A namespace that is not empty is a target of the table if the table has it
among its namespaces. -/
theorem checkIfProfileTargetNamespace_iff {ns : String} (hns : ns ≠ "") (data : RunData) :
    checkIfProfileTargetNamespace ns data = true ↔
      ∃ table, data.ruleTable = some table ∧ ns ∈ table.namespaces := by
  unfold checkIfProfileTargetNamespace
  cases data.ruleTable with
  | none => simp
  | some table =>
      simp only [RuleTable.checkIfTargetNamespace, hns, if_false, Option.some.injEq,
        exists_eq_left', exactMatchWithPatternArray_iff]

theorem scopeData_signerConfig (reqc : ReqContext) (config : ShieldConfig)
    (answers initAnswers : RuleAnswers) :
    (scopeData reqc config answers (RunData.init config initAnswers)).signerConfig = none := by
  unfold scopeData
  split_ifs
  · rw [RunData.getRuleTable_signerConfig, RunData.init_signerConfig]
  · exact RunData.init_signerConfig ..

theorem unmonitored_iff (config : ShieldConfig) (reqc : ReqContext) (seen : RunData) :
    (asksTable reqc config &&
      !checkIfProfileTargetNamespace (getRequestNamespaceFromReqContext reqc) seen) = true ↔
      Unmonitored config reqc seen := by
  rw [Bool.and_eq_true, asksTable_iff, Bool.not_eq_true', Unmonitored, and_assoc]
  refine and_congr_right fun hns => and_congr_right fun _ => ?_
  rw [← Bool.not_eq_true, checkIfProfileTargetNamespace_iff hns]
  push Not
  rfl

/-- **The scope check** lets exactly the requests out of scope through. -/
theorem inScopeCheck_eq_ok {answers : RuleAnswers} {data : RunData} {ctx : CheckContext}
    {s : Stage} (h : inScopeCheck reqc config answers data ctx = .ok s) :
    s.data = scopeData reqc config answers data ∧
    (s.Allows ∧ OutOfScope config reqc (scopeData reqc config answers data) ∨
     s.PassesOn ctx ∧ ¬OutOfScope config reqc (scopeData reqc config answers data)) := by
  set seen := scopeData reqc config answers data with hseen
  have hunmonitored := unmonitored_iff config reqc seen
  rw [inScopeCheck] at h
  simp only [← hseen] at h
  split_ifs at h with hun hdry
  · obtain rfl := Except.ok.inj h
    exact ⟨rfl, .inl ⟨allows_outOfScope .., .inl (hunmonitored.1 hun)⟩⟩
  · obtain rfl := Except.ok.inj h
    exact ⟨rfl, .inl ⟨allows_outOfScope .., .inr (.inl hdry)⟩⟩
  · obtain ⟨ignored, hignored, h⟩ := Go.bind_eq_ok.1 h
    have hmatch := Go.anyM_eq_ok hignored
    split_ifs at h with hig
    · obtain rfl := Except.ok.inj h
      exact ⟨rfl, .inl ⟨allows_outOfScope .., .inr (.inr (hmatch.1 hig))⟩⟩
    · obtain rfl := Except.ok.inj h
      refine ⟨rfl, .inr ⟨⟨rfl, rfl⟩, ?_⟩⟩
      rintro (hu | hd | hi)
      · exact hun (hunmonitored.2 hu)
      · exact hdry hd
      · exact hig (hmatch.2 hi)

/-- **The check of the shield's own resources** decides by the user. -/
theorem iShieldResourceCheck_eq_ok {data : RunData} {ctx : CheckContext} {s : Stage}
    (h : iShieldResourceCheck reqc config data ctx = .ok s) :
    s.data = data ∧
    (IShieldResource config reqc ∧ s.Decides (PermittedUser config reqc) ∨
     ¬IShieldResource config reqc ∧ s.PassesOn ctx) := by
  rw [iShieldResourceCheck, Go.bind_eq_ok] at h
  obtain ⟨condition, hcondition, h⟩ := h
  obtain ⟨operatorResource, hoperator, h⟩ := Go.bind_eq_ok.1 h
  obtain ⟨serverResource, hserver, h⟩ := Go.bind_eq_ok.1 h
  have hcond : config.iShieldResourceCondition = some condition := Go.deref_eq_ok.1 hcondition
  have hop : OperatorResource config reqc ↔ operatorResource = true := by
    constructor
    · rintro ⟨condition', hcond', hop'⟩
      obtain rfl := Option.some.inj (hcond.symm.trans hcond')
      exact Except.ok.inj (hoperator.symm.trans hop')
    · rintro rfl
      exact ⟨condition, hcond, hoperator⟩
  have hsv : ServerResource config reqc ↔ serverResource = true := by
    constructor
    · rintro ⟨condition', hcond', hsv'⟩
      obtain rfl := Option.some.inj (hcond.symm.trans hcond')
      exact Except.ok.inj (hserver.symm.trans hsv')
    · rintro rfl
      exact ⟨condition, hcond, hserver⟩
  split_ifs at h with hnone
  · obtain rfl := Except.ok.inj h
    refine ⟨rfl, .inr ⟨?_, ⟨rfl, rfl⟩⟩⟩
    rw [Bool.and_eq_true, Bool.not_eq_true', Bool.not_eq_true'] at hnone
    rintro (ho | hs)
    · rw [hop, hnone.1] at ho
      cases ho
    · rw [hsv, hnone.2] at hs
      cases hs
  · obtain ⟨operatorReq, hreq, h⟩ := Go.bind_eq_ok.1 h
    have huser : OperatorUser config reqc ↔ operatorReq = true := by
      rw [OperatorUser, hreq, Except.ok.injEq]
    have hpermitted : permittedUser reqc config operatorResource serverResource operatorReq = true ↔
        PermittedUser config reqc := by
      simp only [permittedUser, PermittedUser, OperatorResourceUser, ServerResourceUser, hop, hsv,
        huser, Bool.or_eq_true, Bool.and_eq_true, or_assoc]
    have hshield : IShieldResource config reqc := by
      rw [IShieldResource, hop, hsv]
      cases operatorResource with
      | true => exact .inl rfl
      | false => exact .inr (by simpa using hnone)
    split_ifs at h with huser
    · obtain rfl := Except.ok.inj h
      exact ⟨rfl, .inl ⟨hshield, .inl ⟨⟨rfl, rfl⟩, hpermitted.1 huser⟩⟩⟩
    · obtain rfl := Except.ok.inj h
      exact ⟨rfl, .inl ⟨hshield, .inr ⟨⟨rfl, rfl⟩, fun hp => huser (hpermitted.2 hp)⟩⟩⟩

/-- A refusal by this check is of a user who is not permitted. -/
theorem iShieldResourceCheck_deny {data : RunData} {ctx : CheckContext} {s : Stage}
    (h : iShieldResourceCheck reqc config data ctx = .ok s) (hdeny : s.decision.type = .deny) :
    IShieldResource config reqc ∧ ¬PermittedUser config reqc := by
  obtain ⟨_, ⟨hshield, ⟨hs, _⟩ | ⟨_, huser⟩⟩ | ⟨_, hs⟩⟩ := iShieldResourceCheck_eq_ok h
  · rw [hs.decision] at hdeny
    cases hdeny
  · exact ⟨hshield, huser⟩
  · rw [hs.1] at hdeny
    cases hdeny

theorem deleteCheck_eq (reqc : ReqContext) (data : RunData) (ctx : CheckContext) :
    (deleteCheck reqc data ctx).data = data ∧
    (reqc.isDeleteRequest = true ∧ (deleteCheck reqc data ctx).Allows ∨
     reqc.isDeleteRequest = false ∧ (deleteCheck reqc data ctx).PassesOn ctx) := by
  cases hdel : reqc.isDeleteRequest with
  | true =>
      rw [deleteCheck, hdel]
      exact ⟨rfl, .inl ⟨rfl, rfl, rfl⟩⟩
  | false =>
      rw [deleteCheck, hdel]
      exact ⟨rfl, .inr ⟨rfl, rfl, rfl⟩⟩

theorem settle_of_not_undetermined {s : Stage} (h : s.decision.isUndetermined = false) :
    Handler.settle s = s := by
  rw [Handler.settle, h]
  rfl

theorem Stage.Decides.isUndetermined {s : Stage} {admitted : Prop} (h : s.Decides admitted) :
    s.decision.isUndetermined = false := by
  rcases h with ⟨hs, _⟩ | ⟨hs, _⟩
  · exact hs.isUndetermined
  · exact hs.isUndetermined

/-- **The overwriting** lets through in detect mode and under break glass. -/
theorem overwriteDecision_eq_ok {answer : Answer SignerConfigResource} {s s' : Stage}
    {admitted : Prop} (hs : s.Decides admitted)
    (h : Handler.overwriteDecision config reqc answer s = .ok s') :
    s'.data = s.data.getSignerConfig answer ∧
    s'.Decides (config.mode = .detect ∨
      checkIfBreakGlassEnabled reqc s'.data.signerConfig = .ok true ∨ admitted) := by
  obtain ⟨breakGlass, hbreak, h⟩ := Go.bind_eq_ok.1 h
  have hdetect : checkIfDetectOnly config = true ↔ config.mode = .detect := by
    simp [checkIfDetectOnly]
  have hglass : checkIfBreakGlassEnabled reqc (s.data.getSignerConfig answer).signerConfig =
      .ok true ↔ breakGlass = true := by
    rw [hbreak, Except.ok.injEq]
  rcases hs with ⟨hs, hadm⟩ | ⟨hs, hadm⟩
  · -- nothing is overwritten
    have hallowed : s.decision.isAllowed = true := by
      rw [DecisionResult.isAllowed, hs.decision]
      rfl
    simp only [hallowed, Bool.not_true, Bool.false_and, Bool.false_eq_true, if_false,
      ite_self] at h
    obtain rfl := Except.ok.inj h
    exact ⟨rfl, .inl ⟨⟨hs.decision, hs.ctx⟩, .inr (.inr hadm)⟩⟩
  · have hdenied : s.decision.isAllowed = false := by
      rw [DecisionResult.isAllowed, hs.decision]
      rfl
    simp only [hdenied, Bool.not_false, Bool.true_and] at h
    split_ifs at h with hnone hd hb
    · rw [Bool.and_eq_true, Bool.not_eq_true', Bool.not_eq_true'] at hnone
      obtain rfl := Except.ok.inj h
      refine ⟨rfl, .inr ⟨⟨hs.decision, hs.ctx⟩, ?_⟩⟩
      rintro (hmode | hbg | hadm')
      · rw [hdetect.2 hmode] at hnone
        cases hnone.2
      · rw [hglass.1 hbg] at hnone
        cases hnone.1
      · exact hadm hadm'
    · obtain rfl := Except.ok.inj h
      exact ⟨rfl, .inl ⟨⟨rfl, rfl⟩, .inl (hdetect.1 hd)⟩⟩
    · obtain rfl := Except.ok.inj h
      exact ⟨rfl, .inl ⟨⟨rfl, rfl⟩, .inr (.inl (hglass.2 hb))⟩⟩
    · cases breakGlass with
      | true => exact absurd rfl hb
      | false => simp [hd] at hnone

end Checks

theorem forall_getElem_cons {α : Type} {P : ℕ → α → Prop} {x : α} {l : List α} :
    (∀ j a, (x :: l)[j]? = some a → P j a) ↔ P 0 x ∧ ∀ j a, l[j]? = some a → P (j + 1) a := by
  constructor
  · exact fun h => ⟨h 0 x rfl, fun j a ha => h (j + 1) a ha⟩
  · rintro ⟨h0, hrest⟩ j a ha
    cases j with
    | zero =>
        obtain rfl := Option.some.inj ha
        exact h0
    | succ j => exact hrest j a ha

section Stages

variable [Outside] {config : ShieldConfig} {reqc : ReqContext}

/-- **The format check** refuses what is not well formatted. -/
theorem formatCheck_eq_ok {data : RunData} {ctx : CheckContext} {s : Stage}
    (h : formatCheck reqc config data ctx = .ok s) :
    s.data = data ∧ (s.Denies ∧ ¬WellFormatted config reqc ∨
      s.PassesOn ctx ∧ WellFormatted config reqc) := by
  obtain ⟨⟨ok, msg⟩, hvalid, h⟩ := Go.bind_eq_ok.1 h
  cases ok with
  | false =>
      obtain rfl := Except.ok.inj h
      refine ⟨rfl, .inl ⟨⟨rfl, rfl⟩, ?_⟩⟩
      rintro ⟨msg', hvalid'⟩
      rw [hvalid] at hvalid'
      cases hvalid'
  | true =>
      obtain rfl := Except.ok.inj h
      exact ⟨rfl, .inr ⟨⟨rfl, rfl⟩, msg, hvalid⟩⟩

/-- The mutation check of an update has found nothing. -/
theorem unmutated_iff {p : ResourceSigningProfile} {mutResult : Option MutationEvalResult}
    (h : updateMutation reqc p = .ok mutResult) :
    unmutated mutResult = true ↔ reqc.isUpdateRequest = true ∧
      ∃ m, mutationEval reqc p = .ok m ∧ m.checked = true ∧ m.isMutated = false := by
  cases hupdate : reqc.isUpdateRequest with
  | false =>
      rw [updateMutation, hupdate] at h
      obtain rfl := Except.ok.inj h
      simp [unmutated]
  | true =>
      rw [updateMutation, hupdate, if_pos rfl] at h
      cases hm : mutationEval reqc p with
      | error e =>
          rw [hm] at h
          cases h
      | ok m =>
          rw [hm] at h
          obtain rfl := Except.ok.inj h
          simp [unmutated]

/-- **The check of one profile** allows what the profile accepts. -/
theorem singleProfileCheck_allowed {data : RunData} {p : ResourceSigningProfile}
    {c : ProfileCheck}
    (h : singleProfileCheck reqc config p data.signerConfig data.resSigList = .ok c) :
    c.allowed = true ↔ Accepts config reqc data p := by
  rw [singleProfileCheck, Go.bind_eq_ok] at h
  obtain ⟨mutResult, hmut, h⟩ := h
  have hunmutated := unmutated_iff hmut
  split_ifs at h with hun
  · obtain rfl := Except.ok.inj h
    exact ⟨fun _ => .inl (hunmutated.1 hun), fun _ => rfl⟩
  · obtain ⟨signerConfig, hsigner, h⟩ := Go.bind_eq_ok.1 h
    obtain ⟨r, hr, h⟩ := Go.bind_eq_ok.1 h
    have hsigner' := Go.deref_eq_ok.1 hsigner
    have haccepts : Accepts config reqc data p ↔ (r.checked && r.allow) = true := by
      rw [Bool.and_eq_true]
      constructor
      · rintro (hm | ⟨signerConfig', r', hs', hr', hchecked⟩)
        · exact absurd (hunmutated.2 hm) hun
        · obtain rfl := Option.some.inj (hsigner'.symm.trans hs')
          obtain rfl := Except.ok.inj (hr.symm.trans hr')
          exact hchecked
      · exact fun hchecked => .inr ⟨signerConfig, r, hsigner', hr, hchecked⟩
    rw [haccepts]
    split_ifs at h with hs
    · obtain rfl := Except.ok.inj h
      exact ⟨fun _ => hs, fun _ => rfl⟩
    · have hdenied : c.allowed = false := by
        split at h
        · obtain rfl := Except.ok.inj h
          rfl
        · obtain rfl := Except.ok.inj h
          rfl
      rw [hdenied]
      exact ⟨fun hc => (nomatch hc), fun hc => absurd hc hs⟩

theorem resourceSigningProfileCheck_eq_ok {answers : ProfileAnswers} {data : RunData}
    {ctx : CheckContext} {p : ResourceSigningProfile} {s : Stage}
    (h : resourceSigningProfileCheck reqc config p answers data ctx = .ok s) :
    s.data = answers.loadInto data ∧ s.Decides (Accepts config reqc (answers.loadInto data) p) := by
  obtain ⟨c, hc, h⟩ := Go.bind_eq_ok.1 h
  obtain rfl := Except.ok.inj h
  have hallowed := singleProfileCheck_allowed hc
  refine ⟨rfl, ?_⟩
  cases hca : c.allowed with
  | true =>
      have hdecision : (c.stage p (answers.loadInto data) ctx).decision.type = .allow := by
        simp [ProfileCheck.stage, hca]
      exact .inl ⟨⟨hdecision, hca⟩, hallowed.1 hca⟩
  | false =>
      have hdecision : (c.stage p (answers.loadInto data) ctx).decision.type = .deny := by
        simp [ProfileCheck.stage, hca]
      refine .inr ⟨⟨hdecision, hca⟩, fun hacc => ?_⟩
      rw [hallowed.2 hacc] at hca
      cases hca

/-- **The loop over the profiles** allows if all of them accept: the induction is
on the profiles that are left, and the stage before them allows unless they are
the first. -/
theorem checkProfiles_eq_ok {answers : ℕ → ProfileAnswers} (start : RunData)
    {profiles : List ResourceSigningProfile} {i : ℕ} {s s' : Stage}
    (h : Handler.checkProfiles config reqc answers i profiles s = .ok s')
    (hdata : s.data = dataAfter answers start i) (hs : profiles = [] → s.Allows) :
    s'.Decides (∀ j p, profiles[j]? = some p →
      Accepts config reqc (dataAfter answers start (i + j + 1)) p) := by
  induction profiles generalizing i s with
  | nil =>
      obtain rfl := Except.ok.inj h
      exact .inl ⟨hs rfl, fun j p hp => by simp at hp⟩
  | cons prof rest ih =>
      rw [Handler.checkProfiles, Go.bind_eq_ok] at h
      obtain ⟨t, ht, h⟩ := h
      obtain ⟨htdata, htdecides⟩ := resourceSigningProfileCheck_eq_ok ht
      have hload : (answers i).loadInto s.data = dataAfter answers start (i + 1) := by
        rw [hdata]
        rfl
      rw [hload] at htdata htdecides
      rw [forall_getElem_cons]
      rcases htdecides with ⟨hallows, hacc⟩ | ⟨hdenies, hacc⟩
      · rw [if_pos (by rw [DecisionResult.isAllowed, hallows.decision]; rfl)] at h
        have hrest : ∀ j, i + (j + 1) + 1 = i + 1 + j + 1 := fun j => by omega
        simp only [hrest]
        rcases ih h htdata fun _ => hallows with ⟨hs', hall⟩ | ⟨hs', hnot⟩
        · exact .inl ⟨hs', hacc, hall⟩
        · exact .inr ⟨hs', fun hall => hnot hall.2⟩
      · rw [if_neg (by rw [DecisionResult.isAllowed, hdenies.decision]; decide)] at h
        obtain rfl := Except.ok.inj h
        exact .inr ⟨hdenies, fun hall => hacc hall.1⟩

/-- **The protection check** lets a request through that there is no rule table
for, or that no profile protects. -/
theorem protectedCheck_eq_ok {answers : RuleAnswers} {data : RunData} {ctx : CheckContext}
    {s : Stage} {profiles : List ResourceSigningProfile}
    (h : protectedCheck reqc config answers data ctx = .ok (s, profiles)) :
    s.data = data.getRuleTable config.namespace answers ∧
    (s.Allows ∧ (∀ loads, ProfilesAccept config reqc loads s.data) ∨
     s.decision.isUndetermined = true ∧ profiles ≠ [] ∧
      ∀ loads, ProfilesAccept config reqc loads s.data ↔ ∀ i p, profiles[i]? = some p →
        Accepts config reqc (dataAfter loads s.data (i + 1)) p) := by
  rw [protectedCheck] at h
  set seen := data.getRuleTable config.namespace answers
  cases htable : seen.ruleTable with
  | none =>
      simp only [htable] at h
      cases h
      exact ⟨rfl, .inl ⟨⟨rfl, rfl⟩, fun _ => .inl htable⟩⟩
  | some table =>
      simp only [htable] at h
      obtain ⟨p, hp, h⟩ := Go.bind_eq_ok.1 h
      have hprofiles : ∀ loads, ProfilesAccept config reqc loads seen ↔
          ∀ i profile, p.matchedProfiles[i]? = some profile →
            Accepts config reqc (dataAfter loads seen (i + 1)) profile := by
        intro loads
        constructor
        · rintro (hnone | ⟨table', p', htable', hp', haccept⟩)
          · rw [htable] at hnone
            cases hnone
          · obtain rfl := Option.some.inj (htable.symm.trans htable')
            obtain rfl := Except.ok.inj (hp.symm.trans hp')
            exact haccept
        · exact fun haccept => .inr ⟨table, p, htable, hp, haccept⟩
      have hmatched := RuleTable.checkIfProtected_isProtected hp
      cases hprot : p.isProtected with
      | true =>
          rw [hprot] at h
          cases h
          exact ⟨rfl, .inr ⟨rfl, hmatched.1 hprot, hprofiles⟩⟩
      | false =>
          have hnil : p.matchedProfiles = [] := by
            by_contra hne
            rw [hmatched.2 hne] at hprot
            cases hprot
          have haccept : ∀ loads, ProfilesAccept config reqc loads seen := by
            intro loads
            rw [hprofiles, hnil]
            intro i profile hi
            simp at hi
          rw [hprot] at h
          simp only [Bool.not_false, if_true] at h
          split_ifs at h
          · cases h
            exact ⟨rfl, .inl ⟨⟨rfl, rfl⟩, haccept⟩⟩
          · cases h
            exact ⟨rfl, .inl ⟨⟨rfl, rfl⟩, haccept⟩⟩

/-- **The check**: its decision is to allow what is admitted and to refuse the
rest, and the context agrees.  In particular it is never undetermined. -/
theorem check_eq_ok {world : World} {data : RunData} {ctx : CheckContext} {s : Stage}
    (h : Handler.check config reqc world data ctx = .ok s) :
    s.Decides (Admitted config reqc world data) := by
  rw [Handler.check, Go.bind_eq_ok] at h
  obtain ⟨s₁, h₁, h⟩ := h
  obtain ⟨hdata₁, ⟨hs₁, hout⟩ | ⟨hs₁, hin⟩⟩ := inScopeCheck_eq_ok h₁
  · simp only [hs₁.isUndetermined] at h
    obtain rfl := Except.ok.inj h
    exact .inl ⟨hs₁, .inl hout⟩
  simp only [hs₁.isUndetermined, Bool.not_true, Bool.false_eq_true, if_false] at h
  obtain ⟨s₂, h₂, h⟩ := Go.bind_eq_ok.1 h
  obtain ⟨hdata₂, ⟨hs₂, hbad⟩ | ⟨hs₂, hformat⟩⟩ := formatCheck_eq_ok h₂
  · simp only [hs₂.isUndetermined] at h
    obtain rfl := Except.ok.inj h
    refine .inr ⟨hs₂, ?_⟩
    rintro (hout | ⟨hgood, _⟩)
    · exact hin hout
    · exact hbad hgood
  have hadmitted : Admitted config reqc world data ↔
      (IShieldResource config reqc ∧ PermittedUser config reqc ∨ ¬IShieldResource config reqc ∧
        (reqc.isDeleteRequest = true ∨ ProfilesAccept config reqc world.profile
          (s₂.data.getRuleTable config.namespace world.protect))) := by
    rw [hdata₂, hdata₁]
    constructor
    · rintro (hout | ⟨_, hrest⟩)
      · exact absurd hout hin
      · exact hrest
    · exact fun hrest => .inr ⟨hformat, hrest⟩
  simp only [hs₂.isUndetermined, Bool.not_true, Bool.false_eq_true, if_false] at h
  obtain ⟨s₃, h₃, h⟩ := Go.bind_eq_ok.1 h
  obtain ⟨hdata₃, ⟨hshield, hs₃⟩ | ⟨hother, hs₃⟩⟩ := iShieldResourceCheck_eq_ok h₃
  · simp only [hs₃.isUndetermined] at h
    obtain rfl := Except.ok.inj h
    rcases hs₃ with ⟨hs₃, huser⟩ | ⟨hs₃, huser⟩
    · exact .inl ⟨hs₃, hadmitted.2 (.inl ⟨hshield, huser⟩)⟩
    · refine .inr ⟨hs₃, fun hadm => ?_⟩
      rcases hadmitted.1 hadm with ⟨_, hpermitted⟩ | ⟨hother, _⟩
      · exact huser hpermitted
      · exact hother hshield
  simp only [hs₃.isUndetermined, Bool.not_true, Bool.false_eq_true, if_false] at h
  obtain ⟨hdata₄, ⟨hdelete, hs₄⟩ | ⟨hdelete, hs₄⟩⟩ := deleteCheck_eq reqc s₃.data s₃.ctx
  · simp only [hs₄.isUndetermined] at h
    obtain rfl := Except.ok.inj h
    exact .inl ⟨hs₄, hadmitted.2 (.inr ⟨hother, .inl hdelete⟩)⟩
  simp only [hs₄.isUndetermined, Bool.not_true, Bool.false_eq_true, if_false] at h
  obtain ⟨⟨s₅, profiles⟩, h₅, h⟩ := Go.bind_eq_ok.1 h
  have hrest : Admitted config reqc world data ↔
      ProfilesAccept config reqc world.profile
        (s₂.data.getRuleTable config.namespace world.protect) := by
    rw [hadmitted]
    simp [hother, hdelete]
  obtain ⟨hdata₅, ⟨hs₅, haccept⟩ | ⟨hs₅, hne, haccept⟩⟩ := protectedCheck_eq_ok h₅
  · simp only [hs₅.isUndetermined] at h
    obtain rfl := Except.ok.inj h
    refine .inl ⟨hs₅, hrest.2 ?_⟩
    rw [← hdata₃, ← hdata₄, ← hdata₅]
    exact haccept _
  simp only [hs₅, Bool.not_true, Bool.false_eq_true, if_false] at h
  obtain ⟨s₆, h₆, h⟩ := Go.bind_eq_ok.1 h
  obtain rfl := Except.ok.inj h
  have hs₆ := checkProfiles_eq_ok s₅.data h₆ rfl fun hnil => absurd hnil hne
  rw [settle_of_not_undetermined hs₆.isUndetermined]
  rw [hrest, ← hdata₃, ← hdata₄, ← hdata₅, haccept]
  simpa only [Nat.zero_add] using hs₆

/-- The response follows the decision, and so the context. -/
theorem respond_allowed (config : ShieldConfig) (reqc : ReqContext) {s : Stage} {admitted : Prop}
    (hs : s.Decides admitted) (now : String) :
    (Handler.respond config reqc s now).allowed = s.ctx.allow ∧
    ((Handler.respond config reqc s now).allowed = true ↔ admitted) := by
  rcases hs with ⟨hs, hadm⟩ | ⟨hs, hadm⟩
  · have hresp : (Handler.respond config reqc s now).allowed = true := by
      simp [Handler.respond, DecisionResult.isUndetermined, DecisionResult.isErrorOccurred,
        DecisionResult.isAllowed, hs.decision, createAdmissionResponse]
    rw [hresp, hs.ctx]
    exact ⟨rfl, fun _ => hadm, fun _ => rfl⟩
  · have hresp : (Handler.respond config reqc s now).allowed = false := by
      simp [Handler.respond, DecisionResult.isUndetermined, DecisionResult.isErrorOccurred,
        DecisionResult.isAllowed, hs.decision, createAdmissionResponse]
    rw [hresp, hs.ctx]
    exact ⟨rfl, fun hc => (nomatch hc), fun hc => absurd hc hadm⟩

/-- What a run that returns has gone through. -/
theorem run_eq_ok {req : AdmissionRequest} {world : World} {r : Handler.RunResult}
    (h : Handler.run config req world = .ok r) :
    ∃ reqc s, newReqContext req = .ok reqc ∧
      Handler.check config reqc world (RunData.init config world.init) {} = .ok s ∧
      Handler.overwriteDecision config reqc world.overwrite s = .ok r.final ∧
      r.checked = s.decision ∧ r.response = Handler.respond config reqc r.final world.now := by
  rw [Handler.run, Go.bind_eq_ok] at h
  obtain ⟨reqc, hreqc, h⟩ := h
  obtain ⟨_, _, h⟩ := Go.bind_eq_ok.1 h
  obtain ⟨s, hs, h⟩ := Go.bind_eq_ok.1 h
  obtain ⟨final, hfinal, h⟩ := Go.bind_eq_ok.1 h
  obtain ⟨_, _, h⟩ := Go.bind_eq_ok.1 h
  obtain ⟨_, _, h⟩ := Go.bind_eq_ok.1 h
  obtain ⟨_, _, h⟩ := Go.bind_eq_ok.1 h
  obtain rfl := Except.ok.inj h
  exact ⟨reqc, s, hreqc, hs, hfinal, rfl, rfl⟩

/-- The answer of a run. -/
theorem run_response {req : AdmissionRequest} {world : World} {r : Handler.RunResult}
    {reqc : ReqContext} (hreqc : newReqContext req = .ok reqc)
    (h : Handler.run config req world = .ok r) :
    r.response.allowed = r.final.ctx.allow ∧
    (r.response.allowed = true ↔ config.mode = .detect ∨
      checkIfBreakGlassEnabled reqc r.final.data.signerConfig = .ok true ∨
      Admitted config reqc world (RunData.init config world.init)) := by
  obtain ⟨reqc', s, hreqc', hcheck, hfinal, _, hresponse⟩ := run_eq_ok h
  obtain rfl := Except.ok.inj (hreqc.symm.trans hreqc')
  obtain ⟨_, hdecides⟩ := overwriteDecision_eq_ok (check_eq_ok hcheck) hfinal
  rw [hresponse]
  exact respond_allowed config reqc hdecides world.now

/-- **Complete mediation.**  The check of a request never ends undetermined; the
answer of a run is what the context of the check says; and the request is allowed
exactly in detect mode, or if the signer configuration that the run has loaded
breaks the glass for it, or if it is admitted: out of scope, or of a valid format
and a permitted operation on a resource of the shield, or of a valid format, on
another resource, and a deletion or acceptable to all the profiles that protect
it. -/
theorem run_mediates (config : ShieldConfig) (req : AdmissionRequest) (world : World)
    (reqc : ReqContext) (hreqc : newReqContext req = .ok reqc) :
    (∀ s, Handler.check config reqc world (RunData.init config world.init) {} = .ok s →
      s.decision.isUndetermined = false) ∧
    ∀ r, Handler.run config req world = .ok r →
      r.response.allowed = r.final.ctx.allow ∧
      (r.response.allowed = true ↔ config.mode = .detect ∨
        checkIfBreakGlassEnabled reqc r.final.data.signerConfig = .ok true ∨
        Admitted config reqc world (RunData.init config world.init)) :=
  ⟨fun _ hs => (check_eq_ok hs).isUndetermined, fun _ hr => run_response hreqc hr⟩

end Stages

/-- A shield in enforce mode that guards its own config map. -/
def guardedConfig : ShieldConfig where
  log := some { consoleLog := some {}, contextLog := some {} }
  mode := .enforce
  inScopeNamespaceSelector := some { include_ := ["shield"] }
  «namespace» := "shield"
  iShieldResourceCondition := some {
    operatorResources := [some {
      name := "conf", «namespace» := "shield", kind := "ConfigMap", apiVersion := "v1" }]
    operatorServiceAccount := "operator" }

/-- The creation of a config map by `mallory`. -/
def malloryCreates (ns name : String) : AdmissionRequest where
  value := fun path => List.lookup path [("name", name), ("namespace", ns),
    ("kind.version", "v1"), ("kind.kind", "ConfigMap"), ("operation", "CREATE"),
    ("userInfo.username", "mallory")]

/-- A profile of the namespace `secure` for its config maps. -/
def secureProfile : ResourceSigningProfile where
  «namespace» := "secure"
  spec := { protectRules := [some { matches_ := [some { kind := some "ConfigMap" }] }] }

/-- That profile is cached, and a signer configuration with some break glass
conditions. -/
def guardedWorld (breakGlass : List BreakGlassCondition) : World where
  init := { rsp := { cached := some [secureProfile] } }
  profile := fun _ => { signerConfig := { cached := some [⟨some { breakGlass := breakGlass }⟩] } }
  overwrite := { cached := some [⟨some { breakGlass := breakGlass }⟩] }

theorem run_mediates_unsigned :
    letI := Outside.silent
    ∃ reqc r, newReqContext (malloryCreates "secure" "cm") = .ok reqc ∧
      Handler.run guardedConfig (malloryCreates "secure" "cm") (guardedWorld []) = .ok r ∧
      r.response.allowed = false ∧ r.final.ctx.allow = false ∧
      ¬Admitted guardedConfig reqc (guardedWorld [])
        (RunData.init guardedConfig (guardedWorld []).init) := by
  let _ := Outside.silent
  obtain ⟨r, hr, hdenied⟩ : ∃ r, Handler.run guardedConfig (malloryCreates "secure" "cm")
      (guardedWorld []) = .ok r ∧ r.response.allowed = false :=
    Go.exists_of_toOption_map (by decide +kernel)
  obtain ⟨reqc, _, hreqc, _⟩ := run_eq_ok hr
  obtain ⟨hctx, hiff⟩ := (run_mediates guardedConfig _ (guardedWorld []) reqc hreqc).2 r hr
  refine ⟨reqc, r, hreqc, hr, hdenied, hctx ▸ hdenied, fun hadm => ?_⟩
  rw [hiff.2 (.inr (.inr hadm))] at hdenied
  cases hdenied

end Shield
end IntegrityShield
