/-
# The stages of the check

`Handler.Check` runs one stage after the other.  A stage that decides ends the check,
a stage that does not leaves the context to the next one (`allowedBy_then_iff`,
`eq_ok_of_then`).  For each stage a pair of lemmas says when it allows and when it
passes on, faults included, and `check_isAllowed_iff` puts them together: the check
returns and allows exactly the requests that are `Cleared`.

Unlike `Admitted`, which describes checks that have returned, `Cleared` also says that
nothing on the way faults.
-/

import IntegrityShield.Shield.Mediation

namespace IntegrityShield
namespace Shield

open Common Apis Mapnode

/-- A part of the check returns, and allows. -/
def AllowedBy (r : Go Stage) : Prop := ∃ s, r = .ok s ∧ s.decision.isAllowed = true

/-- A part of the check returns without a decision. -/
def PassedBy (r : Go Stage) (s : Stage) : Prop := r = .ok s ∧ s.decision.isUndetermined = true

theorem not_undetermined_of_isAllowed {s : Stage} (h : s.decision.isAllowed = true) :
    s.decision.isUndetermined = false := by
  rw [DecisionResult.isAllowed, beq_iff_eq] at h
  rw [DecisionResult.isUndetermined, h]
  rfl

/-- **A stage and the rest of the check**: the stage allows, or it passes on and the
rest allows. -/
theorem allowedBy_then_iff (stage : Go Stage) (rest : Stage → Go Stage) :
    AllowedBy (stage >>= fun s => if !s.decision.isUndetermined then pure s else rest s) ↔
      AllowedBy stage ∨ ∃ s, PassedBy stage s ∧ AllowedBy (rest s) := by
  cases stage with
  | error e => simp [AllowedBy, PassedBy, bind, Except.bind]
  | ok s =>
      cases hs : s.decision.isUndetermined with
      | true =>
          have hnot : s.decision.isAllowed = false := by
            by_contra hallowed
            rw [not_undetermined_of_isAllowed (Bool.eq_true_of_not_eq_false hallowed)] at hs
            cases hs
          simp [AllowedBy, PassedBy, bind, Except.bind, hs, hnot]
      | false => simp [AllowedBy, PassedBy, bind, Except.bind, hs, pure, Except.pure]

/-- If a stage and the rest of the check return, the stage has decided, or it has passed
on to the rest. -/
theorem eq_ok_of_then {stage : Go Stage} {rest : Stage → Go Stage} {s : Stage}
    (h : (stage >>= fun t => if !t.decision.isUndetermined then pure t else rest t) = .ok s) :
    stage = .ok s ∨ ∃ t, PassedBy stage t ∧ rest t = .ok s := by
  obtain ⟨t, ht, h⟩ := Go.bind_eq_ok.1 h
  split_ifs at h with hdecided
  · obtain rfl := Except.ok.inj h
    exact .inl ht
  · exact .inr ⟨t, ⟨ht, by simpa using hdecided⟩, h⟩

section Conditions

variable (config : ShieldConfig) (reqc : ReqContext)

/-- The resource is one of the shield's own and the user is permitted. -/
def PermittedResource : Prop :=
  ∃ condition operatorResource serverResource operatorReq,
    config.iShieldResourceCondition = some condition ∧
    condition.isOperatorResource reqc.resourceRef = .ok operatorResource ∧
    condition.isServerResource reqc.resourceRef = .ok serverResource ∧
    (operatorResource || serverResource) = true ∧
    checkIfIShieldOperatorRequest reqc config = .ok operatorReq ∧
    permittedUser reqc config operatorResource serverResource operatorReq = true

/-- The resource is none of the shield's own. -/
def OtherResource : Prop :=
  ∃ condition, config.iShieldResourceCondition = some condition ∧
    condition.isOperatorResource reqc.resourceRef = .ok false ∧
    condition.isServerResource reqc.resourceRef = .ok false

variable [Outside]

/-- There is no rule table, or the profiles that protect the request allow it one
after the other; `data` holds the table that the protection check saw. -/
def ProfilesClear (answers : ℕ → ProfileAnswers) (data : RunData) : Prop :=
  data.ruleTable = none ∨
  ∃ table p, data.ruleTable = some table ∧ table.checkIfProtected reqc.map = .ok p ∧
    ∀ i profile, p.matchedProfiles[i]? = some profile → ∃ c,
      singleProfileCheck reqc config profile (dataAfter answers data (i + 1)).signerConfig
        (dataAfter answers data (i + 1)).resSigList = .ok c ∧ c.allowed = true

/-- The checks before the protection check let the request go on. -/
def Unsettled : Prop :=
  checkIfUnprocessedInIShield reqc config = .ok false ∧ WellFormatted config reqc ∧
    OtherResource config reqc

/-- The request passes the check, and nothing on the way faults. -/
def Cleared (world : World) (data : RunData) : Prop :=
  let seen := scopeData reqc config world.scope data
  Unmonitored config reqc seen ∨ reqc.dryRun = true ∨
  checkIfUnprocessedInIShield reqc config = .ok true ∨
  checkIfUnprocessedInIShield reqc config = .ok false ∧ WellFormatted config reqc ∧
    PermittedResource config reqc ∨
  Unsettled config reqc ∧ (reqc.isDeleteRequest = true ∨
    ProfilesClear config reqc world.profile (seen.getRuleTable config.namespace world.protect))

end Conditions

theorem allowedBy_ok (s : Stage) : AllowedBy (.ok s) ↔ s.decision.isAllowed = true := by
  simp [AllowedBy]

theorem passedBy_ok {s t : Stage} : PassedBy (.ok t) s ↔
    s = t ∧ t.decision.isUndetermined = true := by
  constructor
  · rintro ⟨h, hs⟩
    obtain rfl := Except.ok.inj h
    exact ⟨rfl, hs⟩
  · rintro ⟨rfl, hs⟩
    exact ⟨rfl, hs⟩

section Stages

variable {config : ShieldConfig} {reqc : ReqContext} {data : RunData} {ctx : CheckContext}
  {s : Stage}

theorem inScopeCheck_allowedBy_iff {answers : RuleAnswers} :
    AllowedBy (inScopeCheck reqc config answers data ctx) ↔
      Unmonitored config reqc (scopeData reqc config answers data) ∨ reqc.dryRun = true ∨
      checkIfUnprocessedInIShield reqc config = .ok true := by
  rw [← unmonitored_iff, inScopeCheck]
  split_ifs with hun hdry
  · exact ⟨fun _ => .inl hun, fun _ => ⟨_, rfl, rfl⟩⟩
  · exact ⟨fun _ => .inr (.inl hdry), fun _ => ⟨_, rfl, rfl⟩⟩
  · cases checkIfUnprocessedInIShield reqc config with
    | error e => simp [AllowedBy, bind, Except.bind, hun, hdry]
    | ok ignored =>
        cases ignored with
        | true => exact ⟨fun _ => .inr (.inr rfl), fun _ => ⟨_, rfl, rfl⟩⟩
        | false =>
            change AllowedBy (.ok ⟨undeterminedDescision, _, _⟩) ↔ _
            simp [allowedBy_ok, hun, hdry, undeterminedDescision, DecisionResult.isAllowed]

theorem inScopeCheck_passedBy_iff {answers : RuleAnswers} :
    PassedBy (inScopeCheck reqc config answers data ctx) s ↔
      s = ⟨undeterminedDescision, ctx, scopeData reqc config answers data⟩ ∧
      ¬Unmonitored config reqc (scopeData reqc config answers data) ∧ reqc.dryRun = false ∧
      checkIfUnprocessedInIShield reqc config = .ok false := by
  have hallows : ∀ data msg, ¬PassedBy (.ok (outOfScope data ctx msg)) s := by
    rintro data msg h
    cases (passedBy_ok.1 h).2
  rw [← unmonitored_iff, inScopeCheck]
  split_ifs with hun hdry
  · exact ⟨fun h => absurd h (hallows _ _), fun h => absurd hun h.2.1⟩
  · exact ⟨fun h => absurd h (hallows _ _), fun h => by rw [hdry] at h; cases h.2.2.1⟩
  · cases checkIfUnprocessedInIShield reqc config with
    | error e => simp [PassedBy, bind, Except.bind]
    | ok ignored =>
        cases ignored with
        | true => exact ⟨fun h => absurd h (hallows _ _), fun h => by cases h.2.2.2⟩
        | false =>
            change PassedBy (.ok ⟨undeterminedDescision, _, _⟩) s ↔ _
            rw [passedBy_ok]
            exact ⟨fun h => ⟨h.1, hun, Bool.eq_false_iff.2 hdry, rfl⟩, fun h => ⟨h.1, rfl⟩⟩

theorem deleteCheck_allowedBy_iff :
    AllowedBy (.ok (deleteCheck reqc data ctx)) ↔ reqc.isDeleteRequest = true := by
  rw [allowedBy_ok, deleteCheck]
  split_ifs with hdelete
  · exact ⟨fun _ => hdelete, fun _ => rfl⟩
  · exact ⟨fun h => absurd h Bool.false_ne_true, fun h => absurd h hdelete⟩

theorem deleteCheck_passedBy_iff :
    PassedBy (.ok (deleteCheck reqc data ctx)) s ↔
      s = ⟨undeterminedDescision, ctx, data⟩ ∧ reqc.isDeleteRequest = false := by
  rw [passedBy_ok, deleteCheck]
  split_ifs with hdelete
  · exact ⟨fun h => absurd h.2 Bool.false_ne_true, fun h => by rw [hdelete] at h; cases h.2⟩
  · exact ⟨fun h => ⟨h.1, Bool.eq_false_iff.2 hdelete⟩, fun h => ⟨h.1, rfl⟩⟩

theorem iShieldResourceCheck_allowedBy_iff :
    AllowedBy (iShieldResourceCheck reqc config data ctx) ↔ PermittedResource config reqc := by
  constructor
  · rintro ⟨s, h, hs⟩
    rw [iShieldResourceCheck, Go.bind_eq_ok] at h
    obtain ⟨condition, hcondition, h⟩ := h
    obtain ⟨operatorResource, hoperator, h⟩ := Go.bind_eq_ok.1 h
    obtain ⟨serverResource, hserver, h⟩ := Go.bind_eq_ok.1 h
    split_ifs at h with hnone
    · obtain rfl := Except.ok.inj h
      cases hs
    · obtain ⟨operatorReq, hreq, h⟩ := Go.bind_eq_ok.1 h
      split_ifs at h with huser
      · refine ⟨condition, operatorResource, serverResource, operatorReq,
          Go.deref_eq_ok.1 hcondition, hoperator, hserver, ?_, hreq, huser⟩
        by_contra hor
        rw [Bool.not_eq_true, Bool.or_eq_false_iff] at hor
        simp [hor] at hnone
      · obtain rfl := Except.ok.inj h
        cases hs
  · rintro ⟨condition, operatorResource, serverResource, operatorReq, hcondition, hoperator,
      hserver, hor, hreq, huser⟩
    have hnone : (!operatorResource && !serverResource) = false := by
      rw [← Bool.not_or, hor]
      rfl
    rw [iShieldResourceCheck, hcondition]
    simp only [Go.deref, bind, Except.bind, hoperator, hserver, hnone, hreq, huser,
      Bool.false_eq_true, if_false, if_true]
    exact ⟨_, rfl, rfl⟩

theorem iShieldResourceCheck_passedBy_iff :
    PassedBy (iShieldResourceCheck reqc config data ctx) s ↔
      s = ⟨undeterminedDescision, ctx, data⟩ ∧ OtherResource config reqc := by
  constructor
  · rintro ⟨h, hs⟩
    rw [iShieldResourceCheck, Go.bind_eq_ok] at h
    obtain ⟨condition, hcondition, h⟩ := h
    obtain ⟨operatorResource, hoperator, h⟩ := Go.bind_eq_ok.1 h
    obtain ⟨serverResource, hserver, h⟩ := Go.bind_eq_ok.1 h
    split_ifs at h with hnone
    · rw [Bool.and_eq_true, Bool.not_eq_true', Bool.not_eq_true'] at hnone
      obtain rfl := Except.ok.inj h
      exact ⟨rfl, condition, Go.deref_eq_ok.1 hcondition, hnone.1 ▸ hoperator, hnone.2 ▸ hserver⟩
    · obtain ⟨operatorReq, hreq, h⟩ := Go.bind_eq_ok.1 h
      split_ifs at h with huser
      all_goals
        obtain rfl := Except.ok.inj h
        cases hs
  · rintro ⟨rfl, condition, hcondition, hoperator, hserver⟩
    rw [iShieldResourceCheck, hcondition]
    simp only [Go.deref, bind, Except.bind, hoperator, hserver]
    exact ⟨rfl, rfl⟩

theorem ProfileCheck.stage_isAllowed (c : ProfileCheck) (p : ResourceSigningProfile)
    (data : RunData) (ctx : CheckContext) :
    (c.stage p data ctx).decision.isAllowed = c.allowed := by
  cases hc : c.allowed with
  | true => simp [ProfileCheck.stage, hc, DecisionResult.isAllowed]
  | false => simp [ProfileCheck.stage, hc, DecisionResult.isAllowed]

theorem settle_isAllowed (s : Stage) :
    (Handler.settle s).decision.isAllowed = s.decision.isAllowed := by
  rw [Handler.settle]
  split_ifs with hs
  · rw [DecisionResult.isUndetermined, beq_iff_eq] at hs
    rw [DecisionResult.isAllowed, DecisionResult.isAllowed, hs]
  · rfl

theorem allowedBy_settle (r : Go Stage) :
    AllowedBy (r >>= fun s => pure (Handler.settle s)) ↔ AllowedBy r := by
  cases r with
  | error e => simp [AllowedBy, bind, Except.bind]
  | ok s => simp [AllowedBy, bind, Except.bind, pure, Except.pure, settle_isAllowed]

variable [Outside]

theorem formatCheck_passedBy_iff :
    PassedBy (formatCheck reqc config data ctx) s ↔
      s = ⟨undeterminedDescision, ctx, data⟩ ∧ WellFormatted config reqc := by
  rw [formatCheck, WellFormatted]
  cases validateResource reqc config.namespace with
  | error e => simp [PassedBy, bind, Except.bind]
  | ok result =>
      obtain ⟨ok, msg⟩ := result
      cases ok with
      | false =>
          change PassedBy (.ok _) s ↔ _
          rw [passedBy_ok]
          exact ⟨fun h => absurd h.2 Bool.false_ne_true,
            fun h => by obtain ⟨_, _, h⟩ := h; cases h⟩
      | true =>
          change PassedBy (.ok _) s ↔ _
          rw [passedBy_ok]
          exact ⟨fun h => ⟨h.1, msg, rfl⟩, fun h => ⟨h.1, rfl⟩⟩

theorem not_allowedBy_formatCheck : ¬AllowedBy (formatCheck reqc config data ctx) := by
  rintro ⟨s, h, hs⟩
  obtain ⟨_, ⟨hdenies, _⟩ | ⟨hpasses, _⟩⟩ := formatCheck_eq_ok h
  · rw [DecisionResult.isAllowed, hdenies.decision] at hs
    cases hs
  · rw [hpasses.1] at hs
    cases hs

/-- **The loop over the profiles** allows if every check of a profile returns and
allows: the induction is on the profiles that are left. -/
theorem checkProfiles_allowedBy_iff {answers : ℕ → ProfileAnswers} (start : RunData)
    {profiles : List ResourceSigningProfile} {i : ℕ} (hdata : s.data = dataAfter answers start i) :
    AllowedBy (Handler.checkProfiles config reqc answers i profiles s) ↔
      (profiles = [] → s.decision.isAllowed = true) ∧
      ∀ j p, profiles[j]? = some p → ∃ c,
        singleProfileCheck reqc config p (dataAfter answers start (i + j + 1)).signerConfig
          (dataAfter answers start (i + j + 1)).resSigList = .ok c ∧ c.allowed = true := by
  induction profiles generalizing i s with
  | nil => simp [Handler.checkProfiles, allowedBy_ok]
  | cons prof rest ih =>
      have hload : (answers i).loadInto s.data = dataAfter answers start (i + 1) := by
        rw [hdata]
        rfl
      rw [forall_getElem_cons, Handler.checkProfiles, resourceSigningProfileCheck, hload]
      cases hsingle : singleProfileCheck reqc config prof
          (dataAfter answers start (i + 1)).signerConfig
          (dataAfter answers start (i + 1)).resSigList with
      | error e => simp [AllowedBy, bind, Except.bind]
      | ok c =>
          have hrest := @ih (c.stage prof (dataAfter answers start (i + 1)) s.ctx) (i + 1) rfl
          have hshift : ∀ j, i + 1 + j + 1 = i + (j + 1) + 1 := fun j => by omega
          have hallowed := c.stage_isAllowed prof (dataAfter answers start (i + 1)) s.ctx
          simp only [hshift] at hrest
          simp only [bind, Except.bind, pure, Except.pure]
          cases hc : c.allowed with
          | false =>
              rw [hc] at hallowed
              simp [hallowed, allowedBy_ok, hc]
          | true =>
              rw [hc] at hallowed
              simp only [hallowed, if_true, hrest]
              simp [hc]

/-- **The protection check and the loop.** -/
theorem protectedCheck_allowedBy_iff {world : World} :
    AllowedBy (do
      let (s, matchedProfiles) ← protectedCheck reqc config world.protect data ctx
      if !s.decision.isUndetermined then return s
      let s ← Handler.checkProfiles config reqc world.profile 0 matchedProfiles s
      return Handler.settle s) ↔
      ProfilesClear config reqc world.profile
        (data.getRuleTable config.namespace world.protect) := by
  rw [protectedCheck]
  set seen := data.getRuleTable config.namespace world.protect with hseen
  cases htable : seen.ruleTable with
  | none =>
      simp only [bind, Except.bind, pure, Except.pure]
      exact ⟨fun _ => .inl htable, fun _ => ⟨_, rfl, rfl⟩⟩
  | some table =>
      have hclear : ProfilesClear config reqc world.profile seen ↔ ∃ p,
          table.checkIfProtected reqc.map = .ok p ∧
          ∀ i profile, p.matchedProfiles[i]? = some profile → ∃ c,
            singleProfileCheck reqc config profile
              (dataAfter world.profile seen (i + 1)).signerConfig
              (dataAfter world.profile seen (i + 1)).resSigList = .ok c ∧ c.allowed = true := by
        simp [ProfilesClear, htable]
      rw [hclear]
      cases hp : table.checkIfProtected reqc.map with
      | error e => simp [AllowedBy, bind, Except.bind, hp]
      | ok p =>
          have hmatched := RuleTable.checkIfProtected_isProtected hp
          simp only [bind, Except.bind, pure, Except.pure, hp]
          cases hprot : p.isProtected with
          | false =>
              have hnil : p.matchedProfiles = [] := by
                by_contra hne
                rw [hmatched.2 hne] at hprot
                cases hprot
              refine ⟨fun _ => ⟨p, rfl, fun i profile hi => ?_⟩, fun _ => ?_⟩
              · rw [hnil] at hi
                cases hi
              · cases p.ignoreMatched with
                | true => exact ⟨_, rfl, rfl⟩
                | false => exact ⟨_, rfl, rfl⟩
          | true =>
              change AllowedBy (Handler.checkProfiles config reqc world.profile 0 p.matchedProfiles
                ⟨undeterminedDescision, { ctx with isProtected := true }, seen⟩ >>=
                fun s => pure (Handler.settle s)) ↔ _
              rw [allowedBy_settle, checkProfiles_allowedBy_iff seen rfl]
              simp [hmatched.1 hprot]

/-- The deletion check and the stages after it. -/
theorem deleteCheck_then_iff {world : World} :
    AllowedBy ((.ok (deleteCheck reqc data ctx) : Go Stage) >>= fun s =>
      if !s.decision.isUndetermined then pure s else do
        let (s, matchedProfiles) ← protectedCheck reqc config world.protect s.data s.ctx
        if !s.decision.isUndetermined then return s
        let s ← Handler.checkProfiles config reqc world.profile 0 matchedProfiles s
        return Handler.settle s) ↔
      reqc.isDeleteRequest = true ∨ reqc.isDeleteRequest = false ∧
        ProfilesClear config reqc world.profile
          (data.getRuleTable config.namespace world.protect) := by
  rw [allowedBy_then_iff]
  simp only [deleteCheck_allowedBy_iff, deleteCheck_passedBy_iff, and_assoc, exists_eq_left,
    protectedCheck_allowedBy_iff]

/-- **When the check allows**: exactly if the request passes it and nothing on the way
faults. -/
theorem check_isAllowed_iff {world : World} :
    AllowedBy (Handler.check config reqc world data ctx) ↔ Cleared config reqc world data := by
  rw [Handler.check, allowedBy_then_iff]
  simp only [inScopeCheck_allowedBy_iff, inScopeCheck_passedBy_iff, and_assoc, exists_eq_left]
  rw [allowedBy_then_iff]
  simp only [not_allowedBy_formatCheck, false_or, formatCheck_passedBy_iff, and_assoc,
    exists_eq_left]
  rw [allowedBy_then_iff]
  simp only [iShieldResourceCheck_allowedBy_iff, iShieldResourceCheck_passedBy_iff, and_assoc,
    exists_eq_left]
  refine Iff.trans (or_congr_right (and_congr_right fun _ => and_congr_right fun _ =>
    and_congr_right fun _ => and_congr_right fun _ => or_congr_right (and_congr_right fun _ =>
      deleteCheck_then_iff))) ?_
  unfold Cleared Unsettled
  by_cases hun : Unmonitored config reqc (scopeData reqc config world.scope data)
  · simp [hun]
  · cases reqc.dryRun with
    | true => simp
    | false =>
        cases reqc.isDeleteRequest with
        | true => tauto
        | false => tauto

end Stages

end Shield
end IntegrityShield
