/-
# The common ignore rules

The operator writes ignore rules for everyone into the common profile, such as one for its own
service account (`integrity-shield-operator/resources/cr.go`).  `NewRuleTable` of
`shield/pkg/shield/ruleTable.go` appends them to the ignore rules of every profile, where they are
matched in the mode of that profile: strictly, that is by the exact name of the request, for a
cluster-scoped request and a profile outside the shield's namespace.  A rule about a user has no
name, so such a profile does not see it (`checkIfProtected_operator`).

`common_ignore_honoured_iff` says which profiles honour a common rule that matches a request.
-/

import IntegrityShield.Shield.Protection

namespace IntegrityShield

open Common Apis

namespace Apis
namespace ResourceSigningProfile

variable (reqFields : ReqFields)

/-- The loop over rules comes to one that matches: those before it return. -/
def ComesToMatch (strict : Bool) (rules : List (Option Rule)) : Prop :=
  ∃ pre rule post, rules = pre ++ rule :: post ∧
    (∀ r ∈ pre, ∃ hit, Rule.matchBy strict r reqFields = .ok hit) ∧
    Rule.matchBy strict rule reqFields = .ok true

theorem exists_findRule_iff (strict : Bool) (rules : List (Option Rule)) :
    (∃ rule, findRule rules strict reqFields = .ok (some rule)) ↔
      ComesToMatch reqFields strict rules := by
  rw [ComesToMatch, ← Go.exists_findM_iff]
  constructor
  · rintro ⟨rule, h⟩
    obtain ⟨found, hfound, h⟩ := Go.bind_eq_ok.1 h
    cases found with
    | none => cases h
    | some found => exact ⟨found, hfound⟩
  · rintro ⟨found, hfound⟩
    cases found with
    | none => cases (Go.findM_eq_some hfound).2
    | some rule => exact ⟨rule, by rw [findRule, hfound]; rfl⟩

theorem findRule_eq_none_iff (strict : Bool) (rules : List (Option Rule)) :
    findRule rules strict reqFields = .ok none ↔
      ∀ rule ∈ rules, Rule.matchBy strict rule reqFields = .ok false := by
  rw [← Go.findM_eq_none_iff]
  constructor
  · intro h
    obtain ⟨found, hfound, h⟩ := Go.bind_eq_ok.1 h
    cases found with
    | none => exact hfound
    | some found =>
        cases found with
        | none => cases (Go.findM_eq_some hfound).2
        | some rule => cases h
  · intro h
    rw [findRule, h]
    rfl

/-- **When a profile does not protect a request**: no force-check rule matches, and an ignore rule
does or no protect rule does. -/
theorem matchRequest_unprotected_iff (p : ResourceSigningProfile) (iShieldNS : String) :
    (∃ rule, p.matchRequest reqFields iShieldNS = .ok (false, rule)) ↔
      (∀ rule ∈ p.spec.forceCheckRules,
        Rule.matchBy (p.strictMatch reqFields iShieldNS) rule reqFields = .ok false) ∧
      (ComesToMatch reqFields (p.strictMatch reqFields iShieldNS) p.spec.ignoreRules ∨
        ∀ rule ∈ p.spec.ignoreRules ++ p.spec.protectRules,
          Rule.matchBy (p.strictMatch reqFields iShieldNS) rule reqFields = .ok false) := by
  rw [matchRequest, ← findRule_eq_none_iff, ← exists_findRule_iff, List.forall_mem_append,
    ← findRule_eq_none_iff, ← findRule_eq_none_iff]
  cases findRule p.spec.forceCheckRules (p.strictMatch reqFields iShieldNS) reqFields with
  | error e => simp [bind, Except.bind]
  | ok force =>
      cases force with
      | some rule => simp [bind, Except.bind, pure, Except.pure]
      | none =>
          cases findRule p.spec.ignoreRules (p.strictMatch reqFields iShieldNS) reqFields with
          | error e => simp [bind, Except.bind]
          | ok ignore =>
              cases ignore with
              | some rule => simp [bind, Except.bind, pure, Except.pure]
              | none =>
                  cases findRule p.spec.protectRules (p.strictMatch reqFields iShieldNS)
                    reqFields with
                  | error e => simp [bind, Except.bind]
                  | ok protect => cases protect <;> simp [bind, Except.bind, pure, Except.pure]

end ResourceSigningProfile
end Apis

namespace Shield

section Honoured

variable (profiles : List ResourceSigningProfile) (namespaces : List Namespace)
  (commonProfile : Option CommonProfile) (shieldNamespace : String) (reqFields : ReqFields)

/-- A common ignore rule matches a request. -/
def CommonRuleMatches : Prop :=
  ∃ rule ∈ commonIgnoreRules commonProfile, Rule.matchWithRequest rule reqFields = .ok true

/-- No force-check rule matches it. -/
def NoForceCheck : Prop :=
  ∀ p ∈ profiles, ∀ rule ∈ p.spec.forceCheckRules, Rule.matchWithRequest rule reqFields ≠ .ok true

/-- A profile that is not strict honours the common rules: its force-check rules have no null
entry, and no null rule stands before an ignore rule, its own or a common one, that matches. -/
def HonoursLoosely (p : ResourceSigningProfile) : Prop :=
  none ∉ p.spec.forceCheckRules ∧
    ∃ pre rule post, p.spec.ignoreRules ++ commonIgnoreRules commonProfile = pre ++ rule :: post ∧
      none ∉ pre ∧ Rule.matchWithRequest rule reqFields = .ok true

/-- A strict one does, if no force-check rule matches strictly, and an ignore rule does, or no
ignore rule and no protect rule. -/
def HonoursStrictly (p : ResourceSigningProfile) : Prop :=
  (∀ rule ∈ p.spec.forceCheckRules, Rule.strictMatchWithRequest rule reqFields = .ok false) ∧
    ((∃ pre rule post,
        p.spec.ignoreRules ++ commonIgnoreRules commonProfile = pre ++ rule :: post ∧
        (∀ r ∈ pre, ∃ hit, Rule.strictMatchWithRequest r reqFields = .ok hit) ∧
        Rule.strictMatchWithRequest rule reqFields = .ok true) ∨
      ∀ rule ∈ p.spec.ignoreRules ++ commonIgnoreRules commonProfile ++ p.spec.protectRules,
        Rule.strictMatchWithRequest rule reqFields = .ok false)

theorem matchWithRequest_returns_iff (rule : Option Rule) :
    (∃ hit, Rule.matchBy false rule reqFields = .ok hit) ↔ rule ≠ none := by
  cases rule with
  | none => exact iff_of_false (fun ⟨_, h⟩ => by cases h) (not_not_intro rfl)
  | some rule => exact iff_of_true ⟨_, matchBy_loose rule reqFields⟩ (Option.some_ne_none rule)

variable {profiles commonProfile reqFields}

/-- **The decision of a profile about such a request.** -/
theorem matchRequest_merge_honours_iff (hcommon : CommonRuleMatches commonProfile reqFields)
    (hforce : NoForceCheck profiles reqFields) {p : ResourceSigningProfile} (hp : p ∈ profiles) :
    (∃ rule, (p.merge (commonProfileRSP commonProfile)).matchRequest reqFields shieldNamespace =
        .ok (false, rule)) ↔
      if p.strictMatch reqFields shieldNamespace then HonoursStrictly commonProfile reqFields p
      else HonoursLoosely commonProfile reqFields p := by
  rw [ResourceSigningProfile.matchRequest_unprotected_iff]
  simp only [forceCheckRules_merge_common, ignoreRules_merge_common, protectRules_merge_common,
    strictMatch_merge_common]
  cases p.strictMatch reqFields shieldNamespace with
  | true => exact Iff.rfl
  | false =>
      have hforceRules : (∀ rule ∈ p.spec.forceCheckRules,
          Rule.matchBy false rule reqFields = .ok false) ↔ none ∉ p.spec.forceCheckRules := by
        constructor
        · intro h hnull
          cases h none hnull
        intro hnull rule hrule
        have hne : rule ≠ none := fun h => hnull (h ▸ hrule)
        obtain ⟨hit, hhit⟩ := (matchWithRequest_returns_iff reqFields rule).2 hne
        cases hit with
        | true => exact absurd hhit (hforce p hp rule hrule)
        | false => exact hhit
      have hsome : ¬∀ rule ∈ p.spec.ignoreRules ++ commonIgnoreRules commonProfile ++
          p.spec.protectRules, Rule.matchBy false rule reqFields = .ok false := by
        intro h
        obtain ⟨rule, hrule, hmatch⟩ := hcommon
        cases (h rule (List.mem_append_left _ (List.mem_append_right _ hrule))).symm.trans hmatch
      rw [hforceRules, or_iff_left hsome]
      refine and_congr_right fun _ => exists_congr fun pre => exists_congr fun rule =>
        exists_congr fun post => and_congr_right fun _ => and_congr_left fun _ => ?_
      simp only [matchWithRequest_returns_iff]
      exact ⟨fun h hnull => h none hnull rfl, fun h r hr heq => h (heq ▸ hr)⟩

/-- **When the common ignore rules are honoured.** -/
theorem common_ignore_honoured_iff :
    (CommonRuleMatches commonProfile reqFields → NoForceCheck profiles reqFields →
        ∃ res, (newRuleTable profiles namespaces commonProfile shieldNamespace).checkIfProtected
          reqFields = .ok res ∧ res.isProtected = false) ↔
      (CommonRuleMatches commonProfile reqFields → NoForceCheck profiles reqFields →
        ∀ p ∈ profiles,
          RuleTable.Asked reqFields (targetNamespaces p namespaces shieldNamespace) →
          if p.strictMatch reqFields shieldNamespace then HonoursStrictly commonProfile reqFields p
          else HonoursLoosely commonProfile reqFields p) := by
  refine forall₂_congr fun hcommon hforce => ?_
  rw [RuleTable.checkIfProtected_unprotected_iff]
  exact forall₂_congr fun p hp => imp_congr_right fun _ =>
    matchRequest_merge_honours_iff shieldNamespace hcommon hforce hp

end Honoured

/-- A common rule for the service account of the operator. -/
def operatorProfile : CommonProfile where
  ignoreRules := [some { matches_ := [some {
    userName := some "system:serviceaccount:ishield:operator" }] }]

/-- A profile of the namespace `app` that protects a cluster role by its name. -/
def adminRoleProfile : ResourceSigningProfile where
  «namespace» := "app"
  spec := { protectRules := [some { matches_ := [some {
    kind := some "ClusterRole", name := some "admin" }] }] }

/-- The operator changes the cluster role. -/
def operatorFields : ReqFields :=
  GoMap.writes ∅ [("ResourceScope", "Cluster"), ("Kind", "ClusterRole"), ("Name", "admin"),
    ("Operation", "UPDATE"), ("UserName", "system:serviceaccount:ishield:operator")]

/-- **The operator is not ignored.** -/
theorem checkIfProtected_operator :
    CommonRuleMatches (some operatorProfile) operatorFields ∧
      NoForceCheck [adminRoleProfile] operatorFields ∧
      ∃ res, (newRuleTable [adminRoleProfile] [] (some operatorProfile) "ishield").checkIfProtected
        operatorFields = .ok res ∧ res.isProtected = true := by
  refine ⟨⟨_, List.mem_singleton_self _, by decide +kernel⟩, ?_, ?_⟩
  · intro p hp rule hrule
    rw [List.mem_singleton.1 hp] at hrule
    cases hrule
  · exact Go.exists_of_toOption_map (by decide +kernel)

end Shield

end IntegrityShield
