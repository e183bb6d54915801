/-
# When list calls fail

A loader that cannot list its resources keeps what it has, which is nothing as long
as nothing is cached.  Without profiles there is no rule table, and without a table
every namespace is unmonitored and every request is unprotected.

`check_failSafe_iff` compares the check of one request in one cluster under all
patterns of failing calls with the check when they all succeed.
-/

import IntegrityShield.Shield.Stages

namespace IntegrityShield
namespace Shield

open Common Apis Mapnode

/-- What the loaders could list. -/
structure Cluster where
  profiles : List ResourceSigningProfile
  namespaces : List Namespace
  resSigs : List (Option ResourceSignature)
  signerConfig : Answer SignerConfigResource

/-- The errors of the list calls of a check, for those that fail: of the profiles and
the namespaces in the scope check and in the protection check, and of the signatures
for each profile. -/
structure Failures where
  scopeProfiles : Option String := none
  scopeNamespaces : Option String := none
  protectProfiles : Option String := none
  protectNamespaces : Option String := none
  resSigs : ℕ → Option String := fun _ => none

/-- The answer of a loader with a cold cache. -/
def coldAnswer {α : Type} (error : Option String) (list : List α) : Answer α where
  listed := match error with
    | some e => .error e
    | none => .ok list

/-- The answers in a cluster with cold caches, if some calls fail. -/
def Cluster.world (cluster : Cluster) (failures : Failures) : World where
  scope := {
    rsp := coldAnswer failures.scopeProfiles cluster.profiles
    ns := coldAnswer failures.scopeNamespaces cluster.namespaces }
  protect := {
    rsp := coldAnswer failures.protectProfiles cluster.profiles
    ns := coldAnswer failures.protectNamespaces cluster.namespaces }
  profile := fun i => {
    signerConfig := cluster.signerConfig
    resSigList := if (failures.resSigs i).isSome then none else some cluster.resSigs }

/-- The profiles cannot be listed. -/
def Failures.noProfiles (e : String) : Failures where
  scopeProfiles := some e
  protectProfiles := some e

namespace RunData

/-- No profile has been loaded, and there is no table. -/
structure WithoutProfiles (data : RunData) : Prop where
  rspList : data.rspList = []
  rspData : data.rspData = []
  ruleTable : data.ruleTable = none

/-- A table without profiles is not installed. -/
theorem WithoutProfiles.setRuleTable {data : RunData} (h : data.WithoutProfiles)
    (shieldNamespace : String) : (data.setRuleTable shieldNamespace).WithoutProfiles := by
  have hempty : (newRuleTable data.rspList data.nsList data.commonProfile
      shieldNamespace).isEmpty = true := by
    by_contra hne
    exact (RuleTable.isEmpty_newRuleTable ..).1 (Bool.eq_false_iff.2 hne) h.rspList
  simp only [RunData.setRuleTable, hempty, Bool.not_true, Bool.false_and, Bool.false_eq_true,
    if_false]
  exact h

theorem withoutProfiles_init (config : ShieldConfig) : (init config {}).WithoutProfiles := by
  have hlists : WithoutProfiles { commonProfile := config.commonProfile } := ⟨rfl, rfl, rfl⟩
  exact hlists.setRuleTable config.namespace

/-- If the profiles cannot be listed, there still is no table. -/
theorem WithoutProfiles.getRuleTable {data : RunData} (h : data.WithoutProfiles)
    (shieldNamespace e : String) (profiles : List ResourceSigningProfile)
    (ns : Answer Namespace) :
    (data.getRuleTable shieldNamespace ⟨coldAnswer (some e) profiles, ns⟩).WithoutProfiles := by
  have hfails : (coldAnswer (some e) profiles).getData true data.rspData = ([], false) := by
    rw [h.rspData]
    rfl
  have htaken : (data.takeLists ([], false)
      (ns.getData true data.nsData)).WithoutProfiles :=
    ⟨h.rspList, rfl, h.ruleTable⟩
  rw [RunData.getRuleTable, RunData.updateRuleTable, hfails]
  split_ifs
  · exact htaken.setRuleTable shieldNamespace
  · exact htaken

end RunData

section FailSafe

variable [Outside] (cluster : Cluster) (config : ShieldConfig) (reqc : ReqContext)

/-- `Handler.Check` allows a request, if some calls fail. -/
def Cluster.Allows (failures : Failures) : Prop :=
  AllowedBy (Handler.check config reqc (cluster.world failures) (RunData.init config {}) {})

/-- **Without profiles everything that is not settled before is allowed.** -/
theorem allows_noProfiles (e : String)
    (h : asksTable reqc config = true ∨ Unsettled config reqc) :
    cluster.Allows config reqc (.noProfiles e) := by
  set world := cluster.world (.noProfiles e) with hworld
  have hseen : (scopeData reqc config world.scope (RunData.init config {})).WithoutProfiles := by
    rw [scopeData]
    split_ifs
    · exact (RunData.withoutProfiles_init config).getRuleTable ..
    · exact RunData.withoutProfiles_init config
  refine check_isAllowed_iff.2 ?_
  by_cases hasks : asksTable reqc config = true
  · obtain ⟨hns, hscope⟩ := asksTable_iff.1 hasks
    refine .inl ⟨hns, hscope, fun table htable => ?_⟩
    cases hseen.ruleTable.symm.trans htable
  · refine .inr (.inr (.inr (.inr ⟨h.resolve_left hasks, .inr (.inl ?_)⟩)))
    exact (hseen.getRuleTable ..).ruleTable

end FailSafe

/-- A cluster with the profile of the namespace `secure`. -/
def secureCluster : Cluster where
  profiles := [secureProfile]
  namespaces := []
  resSigs := []
  signerConfig := {}

end Shield
end IntegrityShield
