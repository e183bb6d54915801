/-
# The targets of a rule table

Two questions are decided by the target namespaces before any rule is looked at:
whether a namespace is monitored at all (`CheckIfTargetNamespace`, on the union of
the targets), and whether a table is worth installing (`IsTargetEmpty`, on their
number).  `CheckIfProtected` reads the targets row by row, and only for requests to
a namespace.

The first question agrees with it (`inScopeCheck_agrees`).  The second does not
for cluster-scoped requests: a table without targets is discarded, though its rules
may protect them (`setRuleTable_discards_iff`).
-/

import IntegrityShield.Common.Attributes
import IntegrityShield.Shield.Mediation
import IntegrityShield.Shield.Protection

namespace IntegrityShield
namespace Shield

open Common Apis

section Rows

variable {reqFields : ReqFields} (shieldNamespace : String)

/-- A request to a namespace that is protected has a row that targets it. -/
theorem exists_target_of_protected {table : RuleTable} {p : RuleTable.Protection}
    (hscope : reqFields.get "ResourceScope" = "Namespaced")
    (h : table.checkIfProtected reqFields = .ok p) (hprotected : p.isProtected = true) :
    ∃ item ∈ table.items, reqFields.get "Namespace" ∈ item.targetNamespaces := by
  by_contra hno
  push Not at hno
  obtain ⟨res, hres, hunprotected⟩ := (RuleTable.foldlM_checkItem_unprotected_iff reqFields
    table.shieldNamespace table.items {}).2
      ⟨rfl, fun item hitem hasked => absurd (hasked hscope) (hno item hitem)⟩
  obtain rfl := Except.ok.inj (hres.symm.trans h)
  rw [hprotected] at hunprotected
  cases hunprotected

end Rows

section Tables

variable (profiles : List ResourceSigningProfile) (namespaces : List Namespace)
  (commonProfile : Option CommonProfile) (shieldNamespace : String)

/-- The union holds the targets of all profiles. -/
theorem checkIfTargetNamespace_newRuleTable (ns : String) :
    (newRuleTable profiles namespaces commonProfile shieldNamespace).checkIfTargetNamespace ns =
        true ↔
      ns = "" ∨ ∃ p ∈ profiles, ns ∈ targetNamespaces p namespaces shieldNamespace := by
  rw [RuleTable.checkIfTargetNamespace]
  split_ifs with hns
  · exact ⟨fun _ => .inl hns, fun _ => rfl⟩
  · rw [exactMatchWithPatternArray_iff, mem_namespaces_newRuleTable, or_iff_right hns]

variable {profiles namespaces commonProfile shieldNamespace}

/-- A request to a namespace that the table protects is to a monitored one, for
the scope check that has seen the table. -/
theorem not_unmonitored_of_protected {config : ShieldConfig} {reqc : ReqContext} {seen : RunData}
    {p : RuleTable.Protection} (hscope : reqc.resourceScope = "Namespaced")
    (hseen : asksTable reqc config = true → seen.ruleTable =
      some (newRuleTable profiles namespaces commonProfile shieldNamespace))
    (hp : (newRuleTable profiles namespaces commonProfile shieldNamespace).checkIfProtected
      reqc.map = .ok p)
    (hprotected : p.isProtected = true) : ¬Unmonitored config reqc seen := by
  rintro ⟨hns, hout, huntargeted⟩
  have htable := hseen (asksTable_iff.2 ⟨hns, hout⟩)
  have hreq : getRequestNamespaceFromReqContext reqc = reqc.namespace := by
    unfold getRequestNamespaceFromReqContext at hns ⊢
    split_ifs at hns ⊢ with hnamed
    · rfl
    · exact absurd rfl hns
  obtain ⟨item, hitem, htarget⟩ := exists_target_of_protected
    ((get_map_resourceScope reqc).trans hscope) hp hprotected
  rw [items_newRuleTable] at hitem
  obtain ⟨profile, hprofile, rfl⟩ := List.mem_map.1 hitem
  rw [get_map_namespace] at htarget
  apply huntargeted _ htable
  rw [hreq, mem_namespaces_newRuleTable]
  exact ⟨profile, hprofile, htarget⟩

/-- Only the requests to unmonitored namespaces get the message that says so. -/
theorem inScopeCheck_message {config : ShieldConfig} {reqc : ReqContext} {answers : RuleAnswers}
    {data : RunData} {ctx : CheckContext} {s : Stage}
    (hmonitored : ¬Unmonitored config reqc (scopeData reqc config answers data))
    (h : inScopeCheck reqc config answers data ctx = .ok s) :
    s.decision.message ≠ "this namespace is not monitored" := by
  rw [← unmonitored_iff] at hmonitored
  rw [inScopeCheck] at h
  simp only [if_neg hmonitored] at h
  split_ifs at h
  · obtain rfl := Except.ok.inj h
    simp [outOfScope]
  · obtain ⟨ignored, _, h⟩ := Go.bind_eq_ok.1 h
    split_ifs at h
    · obtain rfl := Except.ok.inj h
      simp [outOfScope]
    · obtain rfl := Except.ok.inj h
      simp [undeterminedDescision]

variable (profiles namespaces commonProfile shieldNamespace)

/-- **The scope check and the protection check agree.**  A namespace is one of the
table if it is empty or a target of some profile.  So a request to a namespace that
the table protects is not let through as being to one that is not monitored, if the
scope check has seen that table, whatever namespaces are configured to be in
scope. -/
theorem inScopeCheck_agrees :
    (∀ ns, (newRuleTable profiles namespaces commonProfile shieldNamespace).checkIfTargetNamespace
        ns = true ↔
      ns = "" ∨ ∃ p ∈ profiles, ns ∈ targetNamespaces p namespaces shieldNamespace) ∧
    ∀ (reqc : ReqContext) (config : ShieldConfig) (answers : RuleAnswers) (data : RunData)
      (ctx : CheckContext) (p : RuleTable.Protection) (s : Stage),
      reqc.resourceScope = "Namespaced" →
      (asksTable reqc config = true → (scopeData reqc config answers data).ruleTable =
        some (newRuleTable profiles namespaces commonProfile shieldNamespace)) →
      (newRuleTable profiles namespaces commonProfile shieldNamespace).checkIfProtected reqc.map =
        .ok p →
      p.isProtected = true →
      inScopeCheck reqc config answers data ctx = .ok s →
      s.decision.message ≠ "this namespace is not monitored" := by
  refine ⟨checkIfTargetNamespace_newRuleTable profiles namespaces commonProfile shieldNamespace,
    fun reqc config answers data ctx p s hscope hseen hp hprotected h => ?_⟩
  exact inScopeCheck_message (not_unmonitored_of_protected hscope hseen hp hprotected) h

/-- The creation of a config map in the namespace `secure`, which is not in scope
by the configuration, with the profile of that namespace cached. -/
theorem inScopeCheck_agrees_secure :
    let table := newRuleTable [secureProfile] [] none "shield"
    let reqc : ReqContext := {
      resourceScope := "Namespaced", kind := "ConfigMap", «namespace» := "secure", name := "cm",
      operation := "CREATE" }
    let data := RunData.init guardedConfig (guardedWorld []).init
    asksTable reqc guardedConfig = true ∧
    ∃ p s, table.checkIfProtected reqc.map = .ok p ∧ p.isProtected = true ∧
      inScopeCheck reqc guardedConfig {} data {} = .ok s ∧
      s.decision.message ≠ "this namespace is not monitored" := by
  intro table reqc data
  have hasks : asksTable reqc guardedConfig = true := by decide +kernel
  have hseen : (scopeData reqc guardedConfig {} data).ruleTable = some table := rfl
  obtain ⟨p, hp, hprotected⟩ : ∃ p, table.checkIfProtected reqc.map = .ok p ∧
      p.isProtected = true := Go.exists_of_toOption_map (by decide +kernel)
  obtain ⟨s, hs⟩ : ∃ s, inScopeCheck reqc guardedConfig {} data {} = .ok s :=
    Go.exists_of_toOption_isSome (by decide +kernel)
  exact ⟨hasks, p, s, hp, hprotected, hs,
    (inScopeCheck_agrees [secureProfile] [] none "shield").2 reqc guardedConfig {} data {} p s
      rfl (fun _ => hseen) hp hprotected hs⟩

/-- A table is installed if it has a target. -/
theorem setRuleTable_eq_none_iff :
    ({ rspList := profiles, nsList := namespaces, commonProfile := commonProfile :
        RunData }.setRuleTable shieldNamespace).ruleTable = none ↔
      ∀ p ∈ profiles, targetNamespaces p namespaces shieldNamespace = [] := by
  have hempty := RuleTable.isEmpty_newRuleTable profiles namespaces commonProfile shieldNamespace
  have htarget := RuleTable.isTargetEmpty_newRuleTable profiles namespaces commonProfile
    shieldNamespace
  rw [RunData.setRuleTable]
  dsimp only
  split_ifs with husable
  · rw [Bool.and_eq_true, Bool.not_eq_true', Bool.not_eq_true'] at husable
    obtain ⟨p, hp, hne⟩ := htarget.1 husable.2
    exact ⟨False.elim, fun h => absurd (h p hp) hne⟩
  · refine ⟨fun _ p hp => ?_, fun _ => rfl⟩
    by_contra hne
    apply husable
    rw [hempty.2 (List.ne_nil_of_mem hp), htarget.2 ⟨p, hp, hne⟩]
    rfl

/-- **What a discarded table would protect.**  The table of some profiles is
installed or protects nothing of a request, precisely if some profile has a
target, or the request is to a namespace, or no profile, merged with the common
one, matches the request. -/
theorem setRuleTable_discards_iff (reqFields : ReqFields) :
    (({ rspList := profiles, nsList := namespaces, commonProfile := commonProfile :
          RunData }.setRuleTable shieldNamespace).ruleTable = none →
        ∃ res, (newRuleTable profiles namespaces commonProfile shieldNamespace).checkIfProtected
          reqFields = .ok res ∧ res.isProtected = false) ↔
      (∃ p ∈ profiles, targetNamespaces p namespaces shieldNamespace ≠ []) ∨
        reqFields.get "ResourceScope" = "Namespaced" ∨
        ∀ p ∈ profiles, ∃ rule, (p.merge (commonProfileRSP commonProfile)).matchRequest reqFields
          shieldNamespace = .ok (false, rule) := by
  rw [setRuleTable_eq_none_iff, RuleTable.checkIfProtected_unprotected_iff]
  by_cases hscope : reqFields.get "ResourceScope" = "Namespaced"
  · refine ⟨fun _ => .inr (.inl hscope), fun _ htargets p hp hasked => ?_⟩
    have htarget := hasked hscope
    rw [htargets p hp] at htarget
    exact absurd htarget List.not_mem_nil
  · constructor
    · intro h
      by_cases htargets : ∀ p ∈ profiles, targetNamespaces p namespaces shieldNamespace = []
      · exact .inr (.inr fun p hp => h htargets p hp fun h => absurd h hscope)
      · push Not at htargets
        exact .inl htargets
    · rintro (⟨p, hp, hne⟩ | h | h) htargets
      · exact absurd (htargets p hp) hne
      · exact absurd h hscope
      · exact fun p hp _ => h p hp

end Tables

/-- A profile of the shield's namespace that selects the namespace `app` and
protects cluster roles. -/
def clusterRoleProfile : ResourceSigningProfile where
  «namespace» := "ishield"
  spec := {
    targetNamespaceSelector := some { include_ := ["app"] }
    protectRules := [some { matches_ := [some { kind := some "ClusterRole" }] }] }

/-- **A discarded table that protects.**  As long as there is no namespace `app`,
the table of that profile is not installed, though it protects a cluster role. -/
theorem setRuleTable_discards_clusterRole :
    let namespaces : List Namespace := [{ name := "default" }]
    let reqFields : ReqFields := GoMap.writes ∅ [("ResourceScope", "Cluster"),
      ("Kind", "ClusterRole"), ("Name", "reader"), ("Operation", "CREATE")]
    ({ rspList := [clusterRoleProfile], nsList := namespaces : RunData }.setRuleTable
        "ishield").ruleTable = none ∧
      ∃ res, (newRuleTable [clusterRoleProfile] namespaces none "ishield").checkIfProtected
        reqFields = .ok res ∧ res.isProtected = true := by
  intro namespaces reqFields
  constructor
  · rw [setRuleTable_eq_none_iff]
    decide +kernel
  · exact Go.exists_of_toOption_map (by decide +kernel)

end Shield
end IntegrityShield
