/-
# What the rule table protects

`CheckIfProtected` on `NewRuleTable` decides by the meaning of the rules
(`checkIfProtected_newRuleTable`): which profiles apply to a request, and which
of these protect it.  No null entry may stand in a rule or pattern list, since
one can fault.
-/

import IntegrityShield.Common.Matching
import IntegrityShield.Shield.RuleTable

namespace IntegrityShield

open Common Apis

namespace Apis
namespace ResourceSigningProfile

variable {reqFields : ReqFields} {strict : Bool}

/-- A loop over rules without null entries finds one exactly when one fits. -/
theorem findRule_of_noNull (hs : strict = true → requestScope reqFields = "Cluster")
    {rules : List (Option Rule)} (hnull : NoNull rules) :
    ∃ found, findRule rules strict reqFields = .ok found ∧
      (found ≠ none ↔ SomeRuleFits rules reqFields strict) := by
  have hcall : ∀ r ∈ rules, Rule.matchBy strict r reqFields =
      .ok (r.any fun rule => decide (rule.Fits reqFields strict)) := by
    intro r hr
    cases r with
    | none => exact absurd hr hnull.1
    | some rule => exact matchBy_some hs (hnull.2 rule hr).1 (hnull.2 rule hr).2
  refine ⟨_, by rw [findRule, Go.findM_eq_find hcall]; rfl, ?_⟩
  rw [ne_eq, Option.join_eq_none_iff, not_or]
  constructor
  · rintro ⟨hfound, hsome⟩
    obtain ⟨r, hr⟩ := Option.ne_none_iff_exists'.1 hfound
    cases r with
    | none => exact absurd hr hsome
    | some rule =>
        have hfits : (some rule).any (fun rule => decide (rule.Fits reqFields strict)) = true :=
          List.find?_some hr
        exact ⟨rule, List.reduceOption_mem_iff.2 (List.mem_of_find?_eq_some hr),
          of_decide_eq_true hfits⟩
  · rintro ⟨rule, hrule, hfits⟩
    have hmem := List.reduceOption_mem_iff.1 hrule
    constructor
    · intro hnone
      have := List.find?_eq_none.1 hnone (some rule) hmem
      simp [hfits] at this
    · intro hnone
      exact absurd (List.mem_of_find?_eq_some hnone) hnull.1

/-- **The order of the rules**: a force-check rule, else an ignore rule, else a
protect rule decides. -/
theorem matchRequest_of_noNull {p : ResourceSigningProfile} {iShieldNS : String}
    (hforce : NoNull p.spec.forceCheckRules) (hignore : NoNull p.spec.ignoreRules)
    (hprotect : NoNull p.spec.protectRules) :
    ∃ r, p.matchRequest reqFields iShieldNS = .ok r ∧
      (r.1 = true ↔
        SomeRuleFits p.spec.forceCheckRules reqFields (p.strictMatch reqFields iShieldNS) ∨
          (¬ SomeRuleFits p.spec.ignoreRules reqFields (p.strictMatch reqFields iShieldNS) ∧
            SomeRuleFits p.spec.protectRules reqFields (p.strictMatch reqFields iShieldNS))) ∧
      ((r.1 = false ∧ r.2 ≠ none) ↔
        ¬ SomeRuleFits p.spec.forceCheckRules reqFields (p.strictMatch reqFields iShieldNS) ∧
          SomeRuleFits p.spec.ignoreRules reqFields (p.strictMatch reqFields iShieldNS)) := by
  have hs : p.strictMatch reqFields iShieldNS = true → requestScope reqFields = "Cluster" := by
    intro h
    rw [strictMatch, Bool.and_eq_true] at h
    exact of_decide_eq_true h.1
  obtain ⟨force, hf, hfits⟩ := findRule_of_noNull hs hforce
  obtain ⟨ignore, hi, hifits⟩ := findRule_of_noNull hs hignore
  obtain ⟨protect, hp, hpfits⟩ := findRule_of_noNull hs hprotect
  simp only [matchRequest, hf, hi, hp, bind, Except.bind, pure, Except.pure]
  rw [← hfits, ← hifits, ← hpfits]
  cases force with
  | some rule => exact ⟨_, rfl, by simp, by simp⟩
  | none =>
      cases ignore with
      | some rule => exact ⟨_, rfl, by simp, by simp⟩
      | none =>
          cases protect with
          | some rule => exact ⟨_, rfl, by simp, by simp⟩
          | none => exact ⟨_, rfl, by simp, by simp⟩

end ResourceSigningProfile
end Apis

namespace Shield

/-- A namespace is a target of a profile: its own one, unless the profile lies
in the shield's namespace and has a selector; then one of the listed namespaces
the selector matches. -/
def Targets (p : ResourceSigningProfile) (namespaces : List Namespace) (shieldNamespace ns : String) :
    Prop :=
  match p.spec.targetNamespaceSelector with
  | some selector =>
      if p.namespace = shieldNamespace then
        ∃ n ∈ namespaces, n.name = ns ∧ selector.matchNamespace n = true
      else ns = p.namespace
  | none => ns = p.namespace

theorem mem_targetNamespaces (p : ResourceSigningProfile) (namespaces : List Namespace)
    (shieldNamespace ns : String) :
    ns ∈ targetNamespaces p namespaces shieldNamespace ↔
      Targets p namespaces shieldNamespace ns := by
  rw [targetNamespaces, Targets]
  cases p.spec.targetNamespaceSelector with
  | none => split <;> exact List.mem_singleton
  | some selector =>
      dsimp only
      split
      · simp only [matchNamespaceListWithSelector, List.mem_map, List.mem_filter]
        exact exists_congr fun n => ⟨fun h => ⟨h.1.1, h.2, h.1.2⟩, fun h => ⟨⟨h.1, h.2.2⟩, h.2.1⟩⟩
      · exact List.mem_singleton

instance (p : ResourceSigningProfile) (namespaces : List Namespace) (shieldNamespace ns : String) :
    Decidable (Targets p namespaces shieldNamespace ns) :=
  decidable_of_iff _ (mem_targetNamespaces p namespaces shieldNamespace ns)

/-- The ignore rules of the common profile. -/
def commonIgnoreRules (commonProfile : Option CommonProfile) : List (Option Rule) :=
  (commonProfileRSP commonProfile).spec.ignoreRules

section Decision

variable (namespaces : List Namespace) (commonProfile : Option CommonProfile)
  (shieldNamespace : String) (reqFields : ReqFields)

/-- A profile applies to a request: it is cluster-scoped, or in a target. -/
def Applies (p : ResourceSigningProfile) : Prop :=
  reqFields.get "ResourceScope" = "Cluster" ∨
    Targets p namespaces shieldNamespace (reqFields.get "Namespace")

instance (p : ResourceSigningProfile) :
    Decidable (Applies namespaces shieldNamespace reqFields p) :=
  inferInstanceAs (Decidable (_ ∨ _))

/-- An ignore rule of a profile, or one of the common profile, fits. -/
def Ignores (p : ResourceSigningProfile) : Prop :=
  SomeRuleFits p.spec.ignoreRules reqFields (p.strictMatch reqFields shieldNamespace) ∨
    SomeRuleFits (commonIgnoreRules commonProfile) reqFields
      (p.strictMatch reqFields shieldNamespace)

instance (p : ResourceSigningProfile) :
    Decidable (Ignores commonProfile shieldNamespace reqFields p) :=
  inferInstanceAs (Decidable (_ ∨ _))

/-- A force-check rule of a profile fits. -/
def ForceChecks (p : ResourceSigningProfile) : Prop :=
  SomeRuleFits p.spec.forceCheckRules reqFields (p.strictMatch reqFields shieldNamespace)

instance (p : ResourceSigningProfile) : Decidable (ForceChecks shieldNamespace reqFields p) :=
  inferInstanceAs (Decidable (SomeRuleFits ..))

/-- A profile protects a request: a force-check rule fits, or no ignore rule and
some protect rule. -/
def Protects (p : ResourceSigningProfile) : Prop :=
  ForceChecks shieldNamespace reqFields p ∨
    (¬ Ignores commonProfile shieldNamespace reqFields p ∧
      SomeRuleFits p.spec.protectRules reqFields (p.strictMatch reqFields shieldNamespace))

instance (p : ResourceSigningProfile) :
    Decidable (Protects commonProfile shieldNamespace reqFields p) :=
  inferInstanceAs (Decidable (_ ∨ _))

/-- A profile without null entries in its rules. -/
def NoNullRules (p : ResourceSigningProfile) : Prop :=
  NoNull p.spec.forceCheckRules ∧ NoNull p.spec.ignoreRules ∧ NoNull p.spec.protectRules

theorem noNull_append {l₁ l₂ : List (Option Rule)} (h₁ : NoNull l₁) (h₂ : NoNull l₂) :
    NoNull (l₁ ++ l₂) := by
  refine ⟨fun h => ?_, fun rule h => ?_⟩
  · rcases List.mem_append.1 h with h | h
    · exact h₁.1 h
    · exact h₂.1 h
  · rcases List.mem_append.1 h with h | h
    · exact h₁.2 rule h
    · exact h₂.2 rule h

theorem someRuleFits_append (l₁ l₂ : List (Option Rule)) (strict : Bool) :
    SomeRuleFits (l₁ ++ l₂) reqFields strict ↔
      SomeRuleFits l₁ reqFields strict ∨ SomeRuleFits l₂ reqFields strict := by
  simp only [SomeRuleFits, List.reduceOption_append, List.mem_append, or_and_right, exists_or]

@[simp] theorem forceCheckRules_merge_common (p : ResourceSigningProfile) :
    (p.merge (commonProfileRSP commonProfile)).spec.forceCheckRules = p.spec.forceCheckRules := by
  cases commonProfile <;> exact List.append_nil _

@[simp] theorem ignoreRules_merge_common (p : ResourceSigningProfile) :
    (p.merge (commonProfileRSP commonProfile)).spec.ignoreRules =
      p.spec.ignoreRules ++ commonIgnoreRules commonProfile := rfl

@[simp] theorem protectRules_merge_common (p : ResourceSigningProfile) :
    (p.merge (commonProfileRSP commonProfile)).spec.protectRules = p.spec.protectRules := by
  cases commonProfile <;> exact List.append_nil _

@[simp] theorem strictMatch_merge_common (p : ResourceSigningProfile) :
    (p.merge (commonProfileRSP commonProfile)).strictMatch reqFields shieldNamespace =
      p.strictMatch reqFields shieldNamespace := rfl

/-- The merged profile decides as the profile and the common rules say. -/
theorem matchRequest_merge {p : ResourceSigningProfile} (hp : NoNullRules p)
    (hc : NoNull (commonIgnoreRules commonProfile)) :
    ∃ r, (p.merge (commonProfileRSP commonProfile)).matchRequest reqFields shieldNamespace = .ok r ∧
      (r.1 = true ↔ Protects commonProfile shieldNamespace reqFields p) ∧
      ((r.1 = false ∧ r.2 ≠ none) ↔ ¬ ForceChecks shieldNamespace reqFields p ∧
        Ignores commonProfile shieldNamespace reqFields p) := by
  have h := @ResourceSigningProfile.matchRequest_of_noNull reqFields
    (p.merge (commonProfileRSP commonProfile)) shieldNamespace (by simpa using hp.1)
    (by simpa using noNull_append hp.2.1 hc) (by simpa using hp.2.2)
  simp only [forceCheckRules_merge_common, ignoreRules_merge_common, protectRules_merge_common,
    strictMatch_merge_common, someRuleFits_append] at h
  exact h

/-- One round of the loop, for the row of a profile without null entries. -/
theorem checkItem_ruleItem (hscope : reqFields.get "ResourceScope" = "Namespaced" ∨
      reqFields.get "ResourceScope" = "Cluster")
    {p : ResourceSigningProfile} (hp : NoNullRules p)
    (hc : NoNull (commonIgnoreRules commonProfile)) (acc : RuleTable.Protection) :
    ∃ acc', RuleTable.checkItem reqFields shieldNamespace acc
        (ruleItem namespaces commonProfile shieldNamespace p) = .ok acc' ∧
      acc'.matchedProfiles = acc.matchedProfiles ++
        (if Applies namespaces shieldNamespace reqFields p ∧
            Protects commonProfile shieldNamespace reqFields p
          then [p.merge (commonProfileRSP commonProfile)] else []) ∧
      (acc'.isProtected = true ↔ acc.isProtected = true ∨
        (Applies namespaces shieldNamespace reqFields p ∧
          Protects commonProfile shieldNamespace reqFields p)) ∧
      (acc'.ignoreMatched = true ↔ acc.ignoreMatched = true ∨
        (Applies namespaces shieldNamespace reqFields p ∧
          ¬ ForceChecks shieldNamespace reqFields p ∧
          Ignores commonProfile shieldNamespace reqFields p)) := by
  have happlies : (reqFields.get "ResourceScope" = "Namespaced" ∧
      exactMatchWithPatternArray (reqFields.get "Namespace")
        (ruleItem namespaces commonProfile shieldNamespace p).targetNamespaces = false) ↔
      ¬ Applies namespaces shieldNamespace reqFields p := by
    rw [← Bool.not_eq_true, exactMatchWithPatternArray_iff, ruleItem, mem_targetNamespaces, Applies,
      not_or]
    refine and_congr_left fun _ => ?_
    rcases hscope with h | h <;> simp [h]
  unfold RuleTable.checkItem
  by_cases ha : Applies namespaces shieldNamespace reqFields p
  · obtain ⟨r, hr, hprot, hign⟩ := matchRequest_merge commonProfile shieldNamespace reqFields hp hc
    rw [if_neg (fun h => happlies.1 h ha)]
    simp only [ruleItem, hr, bind, Except.bind, pure, Except.pure, ha, true_and, ← hprot, ← hign]
    by_cases h₁ : r.1 = true
    · exact ⟨_, by rw [if_pos h₁], by simp [h₁], by simp [h₁], by simp [h₁]⟩
    · by_cases h₂ : r.2 = none
      · exact ⟨_, by rw [if_neg h₁, if_neg (not_not.2 h₂)], by simp [h₁], by simp [h₁],
          by simp [h₂]⟩
      · exact ⟨_, by rw [if_neg h₁, if_pos h₂], by simp [h₁], by simp [h₁], by simp [h₁, h₂]⟩
  · rw [if_pos (happlies.2 ha)]
    exact ⟨acc, rfl, by simp [ha], by simp [ha], by simp [ha]⟩

/-- The loop over the rows. -/
theorem foldlM_checkItem (hscope : reqFields.get "ResourceScope" = "Namespaced" ∨
      reqFields.get "ResourceScope" = "Cluster")
    (hc : NoNull (commonIgnoreRules commonProfile)) :
    ∀ (profiles : List ResourceSigningProfile), (∀ p ∈ profiles, NoNullRules p) →
      ∀ acc : RuleTable.Protection, ∃ acc',
        (profiles.map (ruleItem namespaces commonProfile shieldNamespace)).foldlM
          (RuleTable.checkItem reqFields shieldNamespace) acc = .ok acc' ∧
        acc'.matchedProfiles = acc.matchedProfiles ++
          (profiles.filter fun p => decide (Applies namespaces shieldNamespace reqFields p ∧
            Protects commonProfile shieldNamespace reqFields p)).map
            (·.merge (commonProfileRSP commonProfile)) ∧
        (acc'.isProtected = true ↔ acc.isProtected = true ∨
          ∃ p ∈ profiles, Applies namespaces shieldNamespace reqFields p ∧
            Protects commonProfile shieldNamespace reqFields p) ∧
        (acc'.ignoreMatched = true ↔ acc.ignoreMatched = true ∨
          ∃ p ∈ profiles, Applies namespaces shieldNamespace reqFields p ∧
            ¬ ForceChecks shieldNamespace reqFields p ∧
            Ignores commonProfile shieldNamespace reqFields p)
  | [], _, acc => ⟨acc, rfl, by simp, by simp, by simp⟩
  | p :: rest, hnull, acc => by
      obtain ⟨acc₁, hstep, hm₁, hp₁, hi₁⟩ := checkItem_ruleItem namespaces commonProfile
        shieldNamespace reqFields hscope (hnull p (List.mem_cons_self ..)) hc acc
      obtain ⟨acc₂, hrest, hm₂, hp₂, hi₂⟩ := foldlM_checkItem hscope hc rest
        (fun q hq => hnull q (List.mem_cons_of_mem _ hq)) acc₁
      refine ⟨acc₂, ?_, ?_, ?_, ?_⟩
      · rw [List.map_cons, List.foldlM_cons, hstep]
        exact hrest
      · rw [hm₂, hm₁, List.append_assoc]
        congr 1
        split
        · rename_i h
          rw [List.filter_cons_of_pos (by simpa using h)]
          rfl
        · rename_i h
          rw [List.filter_cons_of_neg (by simpa using h)]
          rfl
      · rw [hp₂, hp₁, List.exists_mem_cons_iff, or_assoc]
      · rw [hi₂, hi₁, List.exists_mem_cons_iff, or_assoc]

end Decision

/-- **What is protected.**  For a namespaced or cluster-scoped request and rules
without null entries the check returns, in order, the merged profiles that apply
to the request and protect it; the request is protected when there is one, and
an ignore rule has matched when some profile that applies has one that fits and
no force-check rule that does. -/
theorem checkIfProtected_newRuleTable (profiles : List ResourceSigningProfile)
    (namespaces : List Namespace) (commonProfile : Option CommonProfile) (shieldNamespace : String)
    (reqFields : ReqFields)
    (hscope : reqFields.get "ResourceScope" = "Namespaced" ∨
      reqFields.get "ResourceScope" = "Cluster")
    (hnull : ∀ p ∈ profiles, NoNullRules p) (hc : NoNull (commonIgnoreRules commonProfile)) :
    ∃ res, (newRuleTable profiles namespaces commonProfile shieldNamespace).checkIfProtected
        reqFields = .ok res ∧
      res.matchedProfiles =
        (profiles.filter fun p => decide (Applies namespaces shieldNamespace reqFields p ∧
          Protects commonProfile shieldNamespace reqFields p)).map
          (·.merge (commonProfileRSP commonProfile)) ∧
      (res.isProtected = true ↔ res.matchedProfiles ≠ []) ∧
      (res.ignoreMatched = true ↔ ∃ p ∈ profiles, Applies namespaces shieldNamespace reqFields p ∧
        ¬ ForceChecks shieldNamespace reqFields p ∧
        Ignores commonProfile shieldNamespace reqFields p) := by
  obtain ⟨res, hres, hm, hp, hi⟩ := foldlM_checkItem namespaces commonProfile shieldNamespace
    reqFields hscope hc profiles hnull {}
  refine ⟨res, ?_, ?_, ?_, ?_⟩
  · rw [RuleTable.checkIfProtected, items_newRuleTable, shieldNamespace_newRuleTable]
    exact hres
  · rw [hm]
    exact List.nil_append _
  · rw [hp, hm]
    simp [List.filter_eq_nil_iff]
  · rw [hi]
    simp

/-- A request for a config map of the namespace `app`. -/
def configMapFields : ReqFields :=
  GoMap.writes ∅ [("ResourceScope", "Namespaced"), ("Namespace", "app"), ("Kind", "ConfigMap")]

/-- A profile of the namespace `app` that protects its config maps does. -/
theorem checkIfProtected_configMap :
    let p : ResourceSigningProfile := {
      «namespace» := "app"
      spec := { protectRules := [some { matches_ := [some { kind := some "ConfigMap" }] }] } }
    ∃ res, (newRuleTable [p] [] none "ishield").checkIfProtected configMapFields = .ok res ∧
      res.isProtected = true := by
  intro p
  obtain ⟨res, hres, hm, hp, _⟩ := checkIfProtected_newRuleTable [p] [] none "ishield"
    configMapFields (Or.inl rfl)
    (by
      intro q hq
      obtain rfl := List.mem_singleton.1 hq
      refine ⟨⟨List.not_mem_nil, fun rule h => absurd h List.not_mem_nil⟩,
        ⟨List.not_mem_nil, fun rule h => absurd h List.not_mem_nil⟩, by decide, ?_⟩
      intro rule h
      obtain rfl := Option.some.inj (List.mem_singleton.1 h)
      decide)
    ⟨List.not_mem_nil, fun rule h => absurd h List.not_mem_nil⟩
  have hprotects : Applies [] "ishield" configMapFields p ∧
      Protects none "ishield" configMapFields p := by decide
  refine ⟨res, hres, hp.2 ?_⟩
  simp [hm, hprotects]

end Shield
end IntegrityShield
