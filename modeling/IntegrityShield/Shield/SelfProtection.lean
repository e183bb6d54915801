/-
# The shield's own resources

A resource of the shield may be changed only by the users `iShieldResourceCheck`
permits.  The check comes before the profiles are asked, but the decision may
still be overwritten, and `overwriteDecision` does not look at the reason of a
refusal.
-/

import IntegrityShield.Shield.Mediation

namespace IntegrityShield
namespace Shield

open Common

section

variable [Outside] {config : ShieldConfig} {reqc : ReqContext}

/-- For a resource of the shield the check of these is the last one, and no signer
configuration has been loaded. -/
theorem check_iShieldResource {world : World} {s₁ s₂ s : Stage}
    (hscope : inScopeCheck reqc config world.scope (RunData.init config world.init) {} = .ok s₁)
    (hs₁ : s₁.decision.isUndetermined = true)
    (hformat : formatCheck reqc config s₁.data s₁.ctx = .ok s₂)
    (hs₂ : s₂.decision.isUndetermined = true) (hshield : IShieldResource config reqc)
    (h : Handler.check config reqc world (RunData.init config world.init) {} = .ok s) :
    s.Decides (PermittedUser config reqc) ∧ s.data.signerConfig = none := by
  rw [Handler.check, hscope] at h
  simp only [bind, Except.bind, hs₁, Bool.not_true, Bool.false_eq_true, if_false, hformat, hs₂] at h
  obtain ⟨s₃, h₃, h⟩ := Go.bind_eq_ok.1 h
  obtain ⟨hdata₃, ⟨_, hs₃⟩ | ⟨hother, _⟩⟩ := iShieldResourceCheck_eq_ok h₃
  · simp only [hs₃.isUndetermined] at h
    obtain rfl := Except.ok.inj h
    refine ⟨hs₃, ?_⟩
    rw [hdata₃, (formatCheck_eq_ok hformat).1, (inScopeCheck_eq_ok hscope).1]
    exact scopeData_signerConfig ..
  · exact absurd hshield hother

/-- **Self-protection and break glass.**  In enforce mode a request for a resource
of the shield by a user who is not permitted is refused if and only if the signer
configuration does not break the glass for it. -/
theorem run_refuses_iff (config : ShieldConfig) (req : AdmissionRequest) (world : World)
    (reqc : ReqContext) (s₁ s₂ : Stage) (r : Handler.RunResult) (hmode : config.mode ≠ .detect)
    (hreqc : newReqContext req = .ok reqc)
    (hscope : inScopeCheck reqc config world.scope (RunData.init config world.init) {} = .ok s₁)
    (hs₁ : s₁.decision.isUndetermined = true)
    (hformat : formatCheck reqc config s₁.data s₁.ctx = .ok s₂)
    (hs₂ : s₂.decision.isUndetermined = true) (hshield : IShieldResource config reqc)
    (huser : ¬PermittedUser config reqc) (hrun : Handler.run config req world = .ok r) :
    r.response.allowed = false ↔
      checkIfBreakGlassEnabled reqc (RunData.loadSignerConfig world.overwrite) ≠ .ok true := by
  obtain ⟨reqc', s, hreqc', hcheck, hfinal, _, hresponse⟩ := run_eq_ok hrun
  obtain rfl := Except.ok.inj (hreqc.symm.trans hreqc')
  obtain ⟨hdecides, hnone⟩ := check_iShieldResource hscope hs₁ hformat hs₂ hshield hcheck
  obtain ⟨hdata, hfinal⟩ := overwriteDecision_eq_ok hdecides hfinal
  have hloaded : r.final.data.signerConfig = RunData.loadSignerConfig world.overwrite := by
    rw [hdata, RunData.getSignerConfig, hnone]
    rfl
  rw [← Bool.not_eq_true, hresponse, (respond_allowed config reqc hfinal world.now).2, hloaded]
  simp [hmode, huser]

end

/-- Whether a run comes to refuse a resource of the shield, as a test. -/
def refusesOwn [Outside] (config : ShieldConfig) (req : AdmissionRequest) (world : World) : Bool :=
  match newReqContext req with
  | .error _ => false
  | .ok reqc =>
      match inScopeCheck reqc config world.scope (RunData.init config world.init) {} with
      | .error _ => false
      | .ok s₁ =>
          match formatCheck reqc config s₁.data s₁.ctx with
          | .error _ => false
          | .ok s₂ =>
              match iShieldResourceCheck reqc config s₂.data s₂.ctx with
              | .error _ => false
              | .ok s₃ => s₁.decision.isUndetermined && s₂.decision.isUndetermined &&
                  decide (s₃.decision.type = .deny)

theorem refusesOwn_eq_true [Outside] {config : ShieldConfig} {req : AdmissionRequest}
    {world : World} (h : refusesOwn config req world = true) :
    ∃ reqc s₁ s₂, newReqContext req = .ok reqc ∧
      inScopeCheck reqc config world.scope (RunData.init config world.init) {} = .ok s₁ ∧
      s₁.decision.isUndetermined = true ∧ formatCheck reqc config s₁.data s₁.ctx = .ok s₂ ∧
      s₂.decision.isUndetermined = true ∧ IShieldResource config reqc ∧
      ¬PermittedUser config reqc := by
  unfold refusesOwn at h
  split at h
  · cases h
  rename_i reqc hreqc
  split at h
  · cases h
  rename_i s₁ hs₁
  split at h
  · cases h
  rename_i s₂ hs₂
  split at h
  · cases h
  rename_i s₃ hs₃
  simp only [Bool.and_eq_true, decide_eq_true_eq] at h
  exact ⟨reqc, s₁, s₂, hreqc, hs₁, h.1.1, hs₂, h.1.2, iShieldResourceCheck_deny hs₃ h.2⟩

theorem run_refuses_mallory :
    letI := Outside.silent
    ∃ r, Handler.run guardedConfig (malloryCreates "shield" "conf") (guardedWorld []) = .ok r ∧
      r.response.allowed = false := by
  let _ := Outside.silent
  have hown :
      refusesOwn guardedConfig (malloryCreates "shield" "conf") (guardedWorld []) = true := by
    decide +kernel
  obtain ⟨reqc, s₁, s₂, hreqc, hs₁, hu₁, hs₂, hu₂, hshield, huser⟩ := refusesOwn_eq_true hown
  obtain ⟨r, hr⟩ : ∃ r, Handler.run guardedConfig (malloryCreates "shield" "conf")
      (guardedWorld []) = .ok r := Go.exists_of_toOption_isSome (by decide +kernel)
  refine ⟨r, hr, (run_refuses_iff guardedConfig _ (guardedWorld []) reqc s₁ s₂ r (by decide)
    hreqc hs₁ hu₁ hs₂ hu₂ hshield huser hr).2 ?_⟩
  have hglass : breakGlassApplies reqc [] = false := by
    unfold breakGlassApplies
    split_ifs <;> rfl
  intro hopen
  have hopen : breakGlassApplies reqc [] = true := Except.ok.inj hopen
  rw [hglass] at hopen
  cases hopen

/-- **Break glass lifts the protection of the shield's own resources.**  The
namespace of the shield is under break glass, and anybody may replace its
configuration. -/
theorem run_breakGlass_allows :
    letI := Outside.silent
    let world := guardedWorld [{ namespaces := ["shield"] }]
    guardedConfig.mode ≠ .detect ∧
    ∃ reqc s₁ s₂ r, newReqContext (malloryCreates "shield" "conf") = .ok reqc ∧
      inScopeCheck reqc guardedConfig world.scope (RunData.init guardedConfig world.init) {} =
        .ok s₁ ∧
      s₁.decision.isUndetermined = true ∧
      formatCheck reqc guardedConfig s₁.data s₁.ctx = .ok s₂ ∧
      s₂.decision.isUndetermined = true ∧ IShieldResource guardedConfig reqc ∧
      ¬PermittedUser guardedConfig reqc ∧
      Handler.run guardedConfig (malloryCreates "shield" "conf") world = .ok r ∧
      r.response.allowed = true := by
  let _ := Outside.silent
  refine ⟨by decide, ?_⟩
  have hown : refusesOwn guardedConfig (malloryCreates "shield" "conf")
      (guardedWorld [{ namespaces := ["shield"] }]) = true := by
    decide +kernel
  obtain ⟨reqc, s₁, s₂, hreqc, hs₁, hu₁, hs₂, hu₂, hshield, huser⟩ := refusesOwn_eq_true hown
  obtain ⟨r, hr, hallowed⟩ : ∃ r, Handler.run guardedConfig (malloryCreates "shield" "conf")
      (guardedWorld [{ namespaces := ["shield"] }]) = .ok r ∧ r.response.allowed = true :=
    Go.exists_of_toOption_map (by decide +kernel)
  exact ⟨reqc, s₁, s₂, r, hreqc, hs₁, hu₁, hs₂, hu₂, hshield, huser, hr, hallowed⟩

end Shield
end IntegrityShield
