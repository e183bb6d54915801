/-
# A missing signer configuration

The signer configuration is read from the API server while a request is checked.  The
call may fail, which leaves a nil pointer; there may be no `SignerConfig`, which leaves an
empty one; and its `config` may be unset.  `singleProfileCheck` follows the first pointer,
`Eval` the second once it has found a signature, and `getBreakGlassConditions` follows the
second for every request that is checked.

`decideProfiles_iff` says for which requests, profiles and answers of the API server the
loop over the profiles and `overwriteDecision` come to a decision.  Each pointer is one of
its conditions; the others are about what may fault beside the configuration.
-/

import IntegrityShield.Shield.Stages

namespace IntegrityShield
namespace Shield

open Common Apis Mapnode

section Conditions

variable [Outside] (config : ShieldConfig) (reqc : ReqContext)

/-- The search for a signature returns, and if there is one, the configuration is set and
the signature can be evaluated with it. -/
def SignatureReturns (p : ResourceSigningProfile) (signerConfig : Option SignerConfig)
    (resSigList : Option (List (Option ResourceSignature))) : Prop :=
  let evaluator := newSignatureEvaluator config signerConfig
  ∃ kustPatterns found, p.kustomize reqc.map = .ok kustPatterns ∧
    evaluator.getResourceSignature (SignatureEvaluator.signedRef reqc kustPatterns) reqc
      resSigList = .ok found ∧
    ∀ sig, found = some sig → ∃ c, signerConfig = some c ∧
      ∃ r, evaluator.evalSignature c sig reqc p = .ok r

/-- An update whose mutation check finds nothing. -/
def Unmutated (p : ResourceSigningProfile) : Prop :=
  reqc.isUpdateRequest = true ∧
    ∃ m, mutationEval reqc p = .ok m ∧ m.checked = true ∧ m.isMutated = false

/-- The check of a profile returns: no attribute pattern that the mutation check looks at is
null, and unless it finds nothing, a signer configuration was loaded and the signature can
be evaluated. -/
def ProfileReturns (data : RunData) (p : ResourceSigningProfile) : Prop :=
  (reqc.isUpdateRequest = true → ∀ old new, HasObjects reqc old new →
    none ∉ p.spec.ignoreAttrs ++ p.spec.unprotectAttrs) ∧
  (Unmutated reqc p ∨ ∃ resource, data.signerConfig = some resource ∧
    SignatureReturns config reqc p resource.config data.resSigList)

/-- The configuration of a loaded `SignerConfig` is set. -/
def ConfigSet (data : RunData) : Prop :=
  ∀ resource, data.signerConfig = some resource → resource.config ≠ none

/-- Every profile that is reached is checked without a fault, and the configuration that is
there in the end is set; the loop goes on while the profiles accept the request. -/
def ChecksReturn (answers : ℕ → ProfileAnswers) (last : Answer SignerConfigResource) :
    ℕ → List ResourceSigningProfile → RunData → Prop
  | _, [], data => ConfigSet (data.getSignerConfig last)
  | i, p :: rest, data =>
      let data := (answers i).loadInto data
      ProfileReturns config reqc data p ∧
        (Accepts config reqc data p → ChecksReturn answers last (i + 1) rest data) ∧
        (¬Accepts config reqc data p → ConfigSet (data.getSignerConfig last))

/-- A decision that is not to allow is overwritten, by a configuration that is set. -/
def Overridden (data : RunData) : Prop :=
  checkIfDetectOnly config = true ∨ checkIfBreakGlassEnabled reqc data.signerConfig = .ok true

/-- The loop over the profiles in `Handler.Check` and the `overwriteDecision` that follows,
for a request that is protected. -/
def decideProfiles (answers : ℕ → ProfileAnswers) (last : Answer SignerConfigResource)
    (profiles : List ResourceSigningProfile) (data : RunData) (ctx : CheckContext) : Go Stage := do
  let s ← Handler.checkProfiles config reqc answers 0 profiles ⟨undeterminedDescision, ctx, data⟩
  Handler.overwriteDecision config reqc last (Handler.settle s)

end Conditions

/-- A call returns a decision to allow or to deny. -/
def Decided (r : Go Stage) : Prop :=
  ∃ s, r = .ok s ∧ (s.decision.type = .allow ∨ s.decision.type = .deny)

section Returns

variable {config : ShieldConfig} {reqc : ReqContext}

theorem checkIfBreakGlassEnabled_returns_iff {data : RunData} :
    (∃ b, checkIfBreakGlassEnabled reqc data.signerConfig = .ok b) ↔ ConfigSet data := by
  rw [checkIfBreakGlassEnabled, ConfigSet]
  cases data.signerConfig with
  | none => simp [getBreakGlassConditions]
  | some resource =>
      cases hconfig : resource.config with
      | none => simp [getBreakGlassConditions, hconfig, Go.deref, bind, Except.bind]
      | some c =>
          simp [getBreakGlassConditions, hconfig, Go.deref, bind, Except.bind, pure, Except.pure]

/-- **When `overwriteDecision` decides**: the configuration is set, and there is a decision
already or it makes one. -/
theorem overwriteDecision_decided_iff {last : Answer SignerConfigResource} {s : Stage} :
    Decided (Handler.overwriteDecision config reqc last s) ↔
      ConfigSet (s.data.getSignerConfig last) ∧
        (s.decision.type = .allow ∨ s.decision.type = .deny ∨
          Overridden config reqc (s.data.getSignerConfig last)) := by
  rw [← @checkIfBreakGlassEnabled_returns_iff reqc, Handler.overwriteDecision, Overridden]
  cases hbreak : checkIfBreakGlassEnabled reqc (s.data.getSignerConfig last).signerConfig with
  | error e => simp [Decided, bind, Except.bind]
  | ok isBreakGlass =>
      simp only [bind, Except.bind, exists_eq', true_and, Except.ok.injEq]
      cases htype : s.decision.type <;> cases isBreakGlass <;>
        cases hdetect : checkIfDetectOnly config <;>
        simp [Decided, Handler.overwrite, DecisionResult.isAllowed, htype, pure, Except.pure]

theorem settle_of_decided {s : Stage}
    (h : s.decision.type = .allow ∨ s.decision.type = .deny) : Handler.settle s = s := by
  rw [Handler.settle, if_neg]
  rcases h with h | h
  · simp [DecisionResult.isUndetermined, h]
  · simp [DecisionResult.isUndetermined, h]

variable [Outside]

theorem updateMutation_returns_iff {p : ResourceSigningProfile} :
    (∃ m, updateMutation reqc p = .ok m) ↔
      (reqc.isUpdateRequest = true → ∀ old new, HasObjects reqc old new →
        none ∉ p.spec.ignoreAttrs ++ p.spec.unprotectAttrs) := by
  rw [updateMutation]
  cases reqc.isUpdateRequest with
  | false => simp
  | true =>
      rw [if_pos rfl, ← mutationEval_returns_iff]
      cases mutationEval reqc p with
      | error e => simp
      | ok m => simp

theorem eval_returns_iff {p : ResourceSigningProfile} {signerConfig : Option SignerConfig}
    {resSigList : Option (List (Option ResourceSignature))} :
    (∃ r, (newSignatureEvaluator config signerConfig).eval reqc resSigList p = .ok r) ↔
      SignatureReturns config reqc p signerConfig resSigList := by
  constructor
  · rintro ⟨r, h⟩
    obtain ⟨kustPatterns, hkust, h⟩ := Go.bind_eq_ok.1 h
    obtain ⟨found, hfound, h⟩ := Go.bind_eq_ok.1 h
    refine ⟨kustPatterns, found, hkust, hfound, ?_⟩
    rintro sig rfl
    obtain ⟨c, hc, h⟩ := Go.bind_eq_ok.1 h
    exact ⟨c, Go.deref_eq_ok.1 hc, r, h⟩
  · rintro ⟨kustPatterns, found, hkust, hfound, hsig⟩
    rw [SignatureEvaluator.eval, hkust]
    simp only [bind, Except.bind, hfound]
    cases found with
    | none => exact ⟨_, rfl⟩
    | some sig =>
        obtain ⟨c, hc, r, hr⟩ := hsig sig rfl
        have hset : (newSignatureEvaluator config signerConfig).signerConfig = some c := hc
        simp only [hset, Go.deref]
        exact ⟨r, hr⟩

/-- **When the check of one profile returns.** -/
theorem singleProfileCheck_returns_iff {p : ResourceSigningProfile} {data : RunData} :
    (∃ c, singleProfileCheck reqc config p data.signerConfig data.resSigList = .ok c) ↔
      ProfileReturns config reqc data p := by
  rw [ProfileReturns, ← updateMutation_returns_iff, singleProfileCheck]
  cases hmut : updateMutation reqc p with
  | error e => simp [bind, Except.bind]
  | ok mutResult =>
      have hun : unmutated mutResult = true ↔ Unmutated reqc p := unmutated_iff hmut
      simp only [bind, Except.bind]
      by_cases hunmutated : unmutated mutResult = true
      · simp [hunmutated, hun.1 hunmutated, pure, Except.pure]
      · have hnot : ¬Unmutated reqc p := fun h => hunmutated (hun.2 h)
        simp only [if_neg hunmutated, hnot, false_or]
        cases hsigner : data.signerConfig with
        | none => simp [Go.deref]
        | some resource =>
            simp only [Go.deref, Option.some.injEq, exists_eq_left', ← eval_returns_iff]
            cases heval : (newSignatureEvaluator config resource.config).eval reqc
                data.resSigList p with
            | error e => simp
            | ok r =>
                simp only [exists_eq', and_self, iff_true, Except.ok.injEq]
                split
                · exact ⟨_, rfl⟩
                · split
                  · exact ⟨_, rfl⟩
                  · exact ⟨_, rfl⟩

/-- **The loop over the profiles and what follows**, from a stage that has a decision, or for
a list with a profile: the induction is on the profiles that are left. -/
theorem checkProfiles_decided_iff {answers : ℕ → ProfileAnswers}
    {last : Answer SignerConfigResource} {profiles : List ResourceSigningProfile} {i : ℕ}
    {s : Stage} (hs : profiles = [] → s.decision.type = .allow) :
    Decided (Handler.checkProfiles config reqc answers i profiles s >>= fun s =>
        Handler.overwriteDecision config reqc last (Handler.settle s)) ↔
      ChecksReturn config reqc answers last i profiles s.data := by
  induction profiles generalizing i s with
  | nil =>
      have htype := hs rfl
      change Decided (Handler.overwriteDecision config reqc last (Handler.settle s)) ↔ _
      rw [settle_of_decided (.inl htype), overwriteDecision_decided_iff]
      exact and_iff_left (.inl htype)
  | cons p rest ih =>
      rw [ChecksReturn, Handler.checkProfiles, ← singleProfileCheck_returns_iff,
        resourceSigningProfileCheck]
      set data := (answers i).loadInto s.data with hdata
      cases hcheck : singleProfileCheck reqc config p data.signerConfig data.resSigList with
      | error e => simp [Decided, bind, Except.bind]
      | ok c =>
          have haccepts := singleProfileCheck_allowed hcheck
          have hallowed := c.stage_isAllowed p data s.ctx
          rw [and_iff_right ⟨c, rfl⟩]
          change Decided ((if (c.stage p data s.ctx).decision.isAllowed then
            Handler.checkProfiles config reqc answers (i + 1) rest (c.stage p data s.ctx)
            else pure (c.stage p data s.ctx)) >>= _) ↔ _
          cases hc : c.allowed with
          | true =>
              have hyes : Accepts config reqc data p := haccepts.1 hc
              have htype : (c.stage p data s.ctx).decision.type = .allow := by
                simp [ProfileCheck.stage, hc]
              rw [if_pos (hallowed.trans hc), ih fun _ => htype]
              exact ⟨fun h => ⟨fun _ => h, fun hno => absurd hyes hno⟩, fun h => h.1 hyes⟩
          | false =>
              have hno : ¬Accepts config reqc data p := fun h => by
                rw [haccepts.2 h] at hc
                cases hc
              have htype : (c.stage p data s.ctx).decision.type = .deny := by
                simp [ProfileCheck.stage, hc]
              rw [if_neg (by rw [hallowed, hc]; exact Bool.false_ne_true)]
              change Decided (Handler.overwriteDecision config reqc last (Handler.settle _)) ↔ _
              rw [settle_of_decided (.inr htype), overwriteDecision_decided_iff]
              exact ⟨fun h => ⟨fun hyes => absurd hyes hno, fun _ => h.1⟩,
                fun h => ⟨h.2 hno, .inr (.inl htype)⟩⟩

/-- **When a protected request is decided.**  A request comes to an allow or deny decision
exactly if every profile that is reached is checked without a fault, the signer
configuration that is loaded in the end, if one is, is set, and there is a profile or the
decision is overwritten. -/
theorem decideProfiles_iff (config : ShieldConfig) (reqc : ReqContext)
    (answers : ℕ → ProfileAnswers) (last : Answer SignerConfigResource)
    (profiles : List ResourceSigningProfile) (data : RunData) (ctx : CheckContext) :
    Decided (decideProfiles config reqc answers last profiles data ctx) ↔
      ChecksReturn config reqc answers last 0 profiles data ∧
        (profiles = [] → Overridden config reqc (data.getSignerConfig last)) := by
  rw [decideProfiles]
  cases profiles with
  | nil =>
      change Decided (Handler.overwriteDecision config reqc last (Handler.settle _)) ↔ _
      rw [overwriteDecision_decided_iff]
      have htype : (Handler.settle ⟨undeterminedDescision, ctx, data⟩).decision.type =
          .undetermined := rfl
      have hdata : (Handler.settle ⟨undeterminedDescision, ctx, data⟩).data = data := rfl
      simp [htype, hdata, ChecksReturn]
  | cons p rest =>
      rw [checkProfiles_decided_iff fun h => absurd h (List.cons_ne_nil p rest)]
      exact (and_iff_left fun h => absurd h (List.cons_ne_nil p rest)).symm

end Returns

/-- The creation of an unsigned resource under an empty profile ends in a nil pointer, if
the API server does not answer, and also if it has no `SignerConfig`. -/
theorem decideProfiles_unconfigured :
    letI := Outside.silent
    ¬Decided (decideProfiles {} { operation := "CREATE" }
      (fun _ => { signerConfig := { listed := .error "unavailable" } })
      { listed := .error "unavailable" } [{}] {} {}) ∧
    ¬Decided (decideProfiles {} { operation := "CREATE" } (fun _ => {}) {} [{}] {} {}) := by
  let _ := Outside.silent
  have hfaults : ((decideProfiles {} { operation := "CREATE" }
      (fun _ => { signerConfig := { listed := .error "unavailable" } })
      { listed := .error "unavailable" } [{}] {} {}).toOption.isNone &&
    (decideProfiles {} { operation := "CREATE" } (fun _ => {}) {} [{}] {} {}).toOption.isNone)
      = true := by
    decide +kernel
  obtain ⟨hfailed, hempty⟩ := Bool.and_eq_true_iff.1 hfaults
  constructor
  · rintro ⟨s, hs, _⟩
    rw [hs] at hfailed
    cases hfailed
  · rintro ⟨s, hs, _⟩
    rw [hs] at hempty
    cases hempty

end Shield
end IntegrityShield
