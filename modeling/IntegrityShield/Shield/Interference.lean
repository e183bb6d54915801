/-
# Profiles do not interfere

A profile outside the shield's namespace is meant to matter to its own
namespace alone, and to a cluster-scoped request only if a rule names the
request exactly.  For namespaced requests that holds as it stands
(`checkIfProtected_insert_namespaced`).  For cluster-scoped ones it holds as
long as no list of match patterns has a null entry: the strict match reads the
name of a pattern before it asks whether the pattern is there, so one null
entry makes the check of every cluster-scoped request fault
(`checkIfProtected_insert_iff`).
-/

import IntegrityShield.Shield.Protection

namespace IntegrityShield

open Common Apis

namespace Common

variable {reqFields : ReqFields}

/-- The one fault of matching. -/
theorem matchRequest_error {m : Option RequestPattern} {strict : Bool} {e : Fault}
    (h : RequestPattern.matchRequest m reqFields strict = .error e) : e = .nilDeref := by
  unfold RequestPattern.matchRequest at h
  cases m with
  | none =>
      split at h
      · exact (Except.error.inj h).symm
      · cases h
  | some p => split at h <;> cases h

theorem anyM_matchRequest_error {patterns : List (Option RequestPattern)} {strict : Bool}
    {e : Fault}
    (h : (patterns.anyM fun m => RequestPattern.matchRequest m reqFields strict) = .error e) :
    e = .nilDeref := by
  obtain ⟨m, _, hm⟩ := Go.exists_of_anyM_error h
  exact matchRequest_error hm

theorem matchBy_error {r : Option Rule} {strict : Bool} {e : Fault}
    (h : Rule.matchBy strict r reqFields = .error e) : e = .nilDeref := by
  rcases Go.bind_eq_error.1 h with h | ⟨rule, _, h⟩
  · cases r with
    | none => exact (Except.error.inj h).symm
    | some rule => cases h
  rcases Go.bind_eq_error.1 h with h | ⟨found, _, h⟩
  · exact anyM_matchRequest_error h
  cases found with
  | false => cases h
  | true =>
      rcases Go.bind_eq_error.1 h with h | ⟨_, _, h⟩
      · exact anyM_matchRequest_error h
      · cases h

/-- A rule list with a null rule, or a null among the match patterns of a rule. -/
def NullMatch (rules : List (Option Rule)) : Prop :=
  none ∈ rules ∨ ∃ rule, some rule ∈ rules ∧ none ∈ rule.matches_

/-- A match pattern of a rule list has exactly the request's name. -/
def NamesRequest (rules : List (Option Rule)) (reqFields : ReqFields) : Prop :=
  ∃ rule, some rule ∈ rules ∧
    ∃ p, some p ∈ rule.matches_ ∧ p.name = some (reqFields.get "Name")

theorem nullMatch_append (l₁ l₂ : List (Option Rule)) :
    NullMatch (l₁ ++ l₂) ↔ NullMatch l₁ ∨ NullMatch l₂ := by
  simp only [NullMatch, List.mem_append, or_and_right, exists_or]
  exact or_or_or_comm ..

theorem namesRequest_append (l₁ l₂ : List (Option Rule)) :
    NamesRequest (l₁ ++ l₂) reqFields ↔ NamesRequest l₁ reqFields ∨ NamesRequest l₂ reqFields := by
  simp only [NamesRequest, List.mem_append, or_and_right, exists_or]

/-- A strict match of a pattern that does not name the request. -/
theorem strictMatch_unnamed (hcl : requestScope reqFields = "Cluster") {p : RequestPattern}
    (hname : p.name ≠ some (reqFields.get "Name")) :
    RequestPattern.matchRequest (some p) reqFields true = .ok false := by
  rw [matchRequest_some (fun _ => hcl), decide_eq_false]
  exact fun hfits => hname (hfits.2.1 rfl)

/-- A strict match of a rule that does not name the request. -/
theorem strictMatchBy_unnamed (hcl : requestScope reqFields = "Cluster") {rule : Rule}
    (hname : ∀ p, some p ∈ rule.matches_ → p.name ≠ some (reqFields.get "Name")) :
    (none ∉ rule.matches_ → Rule.matchBy true (some rule) reqFields = .ok false) ∧
      (none ∈ rule.matches_ → Rule.matchBy true (some rule) reqFields = .error .nilDeref) := by
  constructor
  · intro hnull
    have hany : (rule.matches_.anyM fun m => RequestPattern.matchRequest m reqFields true) =
        .ok false := by
      rw [anyM_matchRequest (fun _ => hcl) hnull, decide_eq_false]
      rintro ⟨p, hp, hfits⟩
      exact hname p (List.reduceOption_mem_iff.1 hp) (hfits.2.1 rfl)
    simp [Rule.matchBy, Go.deref, bind, Except.bind, hany]
    rfl
  · intro hnull
    have hany : (rule.matches_.anyM fun m => RequestPattern.matchRequest m reqFields true) =
        .error .nilDeref := by
      refine Go.anyM_eq_error (fun m hm => ?_) ⟨none, hnull, ?_⟩
      · cases m with
        | none => exact Or.inr (by rw [matchRequest_none, if_pos ⟨rfl, hcl⟩])
        | some p => exact Or.inl (strictMatch_unnamed hcl (hname p hm))
      · rw [matchRequest_none, if_pos ⟨rfl, hcl⟩]
    simp [Rule.matchBy, Go.deref, bind, Except.bind, hany]

end Common

namespace Apis
namespace ResourceSigningProfile

variable {reqFields : ReqFields}

theorem findRule_error {rules : List (Option Rule)} {strict : Bool} {e : Fault}
    (h : findRule rules strict reqFields = .error e) : e = .nilDeref := by
  rcases Go.bind_eq_error.1 h with h | ⟨_, _, h⟩
  · obtain ⟨r, _, hr⟩ := Go.exists_of_findM_error h
    exact matchBy_error hr
  · cases h

theorem matchRequest_error {p : ResourceSigningProfile} {iShieldNS : String} {e : Fault}
    (h : p.matchRequest reqFields iShieldNS = .error e) : e = .nilDeref := by
  rcases Go.bind_eq_error.1 h with h | ⟨force, _, h⟩
  · exact findRule_error h
  cases force with
  | some rule => cases h
  | none =>
      rcases Go.bind_eq_error.1 h with h | ⟨ignore, _, h⟩
      · exact findRule_error h
      cases ignore with
      | some rule => cases h
      | none =>
          rcases Go.bind_eq_error.1 h with h | ⟨protect, _, h⟩
          · exact findRule_error h
          cases protect <;> cases h

/-- A strict search through rules that do not name the request. -/
theorem findRule_unnamed (hcl : requestScope reqFields = "Cluster") {rules : List (Option Rule)}
    (hname : ¬ NamesRequest rules reqFields) :
    (¬ NullMatch rules → findRule rules true reqFields = .ok none) ∧
      (NullMatch rules → findRule rules true reqFields = .error .nilDeref) := by
  have hrule : ∀ rule, some rule ∈ rules → ∀ p, some p ∈ rule.matches_ →
      p.name ≠ some (reqFields.get "Name") := fun rule hr p hp hn => hname ⟨rule, hr, p, hp, hn⟩
  have hcall : ∀ r ∈ rules, Rule.matchBy true r reqFields = .ok false ∨
      Rule.matchBy true r reqFields = .error .nilDeref := by
    intro r hr
    cases r with
    | none => exact Or.inr rfl
    | some rule =>
        by_cases hnull : none ∈ rule.matches_
        · exact Or.inr ((strictMatchBy_unnamed hcl (hrule rule hr)).2 hnull)
        · exact Or.inl ((strictMatchBy_unnamed hcl (hrule rule hr)).1 hnull)
  constructor
  · intro hnull
    have hfind : (rules.findM? fun r => Rule.matchBy true r reqFields) = .ok none := by
      rw [Go.findM_eq_find (f := fun _ => false)]
      · simp
      · intro r hr
        cases r with
        | none => exact absurd (Or.inl hr) hnull
        | some rule =>
            exact (strictMatchBy_unnamed hcl (hrule rule hr)).1 fun h =>
              hnull (Or.inr ⟨rule, hr, h⟩)
    rw [findRule, hfind]
    rfl
  · intro hnull
    have hfind : (rules.findM? fun r => Rule.matchBy true r reqFields) = .error .nilDeref := by
      refine Go.findM_eq_error hcall ?_
      rcases hnull with h | ⟨rule, hr, h⟩
      · exact ⟨none, h, rfl⟩
      · exact ⟨some rule, hr, (strictMatchBy_unnamed hcl (hrule rule hr)).2 h⟩
    rw [findRule, hfind]
    rfl

end ResourceSigningProfile
end Apis

namespace Shield

/-- The rules a profile is matched by, the common ones among them. -/
def mergedRules (commonProfile : Option CommonProfile) (p : ResourceSigningProfile) :
    List (Option Rule) :=
  p.spec.forceCheckRules ++ (p.spec.ignoreRules ++ commonIgnoreRules commonProfile) ++
    p.spec.protectRules

variable (namespaces : List Namespace) (commonProfile : Option CommonProfile)
  (shieldNamespace : String) (reqFields : ReqFields)

/-- A profile outside the shield's namespace with rules that do not name the
request: no decision, or a fault. -/
theorem matchRequest_merge_unnamed {p : ResourceSigningProfile}
    (hns : p.namespace ≠ shieldNamespace) (hcl : requestScope reqFields = "Cluster")
    (hname : ¬ NamesRequest (mergedRules commonProfile p) reqFields) :
    (¬ NullMatch (mergedRules commonProfile p) →
        (p.merge (commonProfileRSP commonProfile)).matchRequest reqFields shieldNamespace =
          .ok (false, none)) ∧
      (NullMatch (mergedRules commonProfile p) →
        (p.merge (commonProfileRSP commonProfile)).matchRequest reqFields shieldNamespace =
          .error .nilDeref) := by
  have hstrict : p.strictMatch reqFields shieldNamespace = true := by
    simp [ResourceSigningProfile.strictMatch, hcl, hns]
  rw [mergedRules, namesRequest_append, namesRequest_append, not_or, not_or] at hname
  obtain ⟨⟨hforce, hignore⟩, hprotect⟩ := hname
  obtain ⟨hforceOk, hforceErr⟩ := ResourceSigningProfile.findRule_unnamed hcl hforce
  obtain ⟨hignoreOk, hignoreErr⟩ := ResourceSigningProfile.findRule_unnamed hcl hignore
  obtain ⟨hprotectOk, hprotectErr⟩ := ResourceSigningProfile.findRule_unnamed hcl hprotect
  rw [mergedRules, nullMatch_append, nullMatch_append]
  simp only [ResourceSigningProfile.matchRequest, forceCheckRules_merge_common,
    ignoreRules_merge_common, protectRules_merge_common, strictMatch_merge_common, hstrict]
  constructor
  · intro hnull
    rw [not_or, not_or] at hnull
    rw [hforceOk hnull.1.1, hignoreOk hnull.1.2, hprotectOk hnull.2]
    rfl
  · intro hnull
    by_cases h₁ : NullMatch p.spec.forceCheckRules
    · rw [hforceErr h₁]
      rfl
    · rw [hforceOk h₁]
      by_cases h₂ : NullMatch (p.spec.ignoreRules ++ commonIgnoreRules commonProfile)
      · rw [hignoreErr h₂]
        rfl
      · rw [hignoreOk h₂, hprotectErr (hnull.resolve_left (not_or.2 ⟨h₁, h₂⟩))]
        rfl

theorem requestScope_eq_cluster {reqFields : ReqFields}
    (h : reqFields.get "ResourceScope" = "Cluster") : requestScope reqFields = "Cluster" := by
  rw [ReqFields.get] at h
  cases hl : reqFields.lookup "ResourceScope" with
  | none =>
      rw [hl] at h
      exact absurd h (by decide)
  | some v =>
      rw [hl, Option.getD_some] at h
      rw [requestScope, hl, h, if_pos rfl]

theorem checkItem_error {acc : RuleTable.Protection} {item : RuleItem} {e : Fault}
    (h : RuleTable.checkItem reqFields shieldNamespace acc item = .error e) :
    item.profile.matchRequest reqFields shieldNamespace = .error e ∧ e = .nilDeref := by
  unfold RuleTable.checkItem at h
  split at h
  · cases h
  rcases Go.bind_eq_error.1 h with h | ⟨r, _, h⟩
  · exact ⟨h, ResourceSigningProfile.matchRequest_error h⟩
  · dsimp only at h
    split at h
    · cases h
    · split at h <;> cases h

/-- The row of a cluster-scoped request is never skipped. -/
theorem checkItem_cluster (hscope : reqFields.get "ResourceScope" = "Cluster")
    (acc : RuleTable.Protection) (item : RuleItem) :
    (∀ e, item.profile.matchRequest reqFields shieldNamespace = .error e →
        RuleTable.checkItem reqFields shieldNamespace acc item = .error e) ∧
      (item.profile.matchRequest reqFields shieldNamespace = .ok (false, none) →
        RuleTable.checkItem reqFields shieldNamespace acc item = .ok acc) := by
  have hskip : ¬ (reqFields.get "ResourceScope" = "Namespaced" ∧
      exactMatchWithPatternArray (reqFields.get "Namespace") item.targetNamespaces = false) := by
    rw [hscope]
    exact fun h => absurd h.1 (by decide)
  unfold RuleTable.checkItem
  rw [if_neg hskip]
  constructor
  · intro e h
    rw [h]
    rfl
  · intro h
    rw [h]
    rfl

/-- The run over the rows with one more row in between. -/
theorem checkIfProtected_insert (pre post : List ResourceSigningProfile)
    (p : ResourceSigningProfile) :
    (newRuleTable (pre ++ p :: post) namespaces commonProfile shieldNamespace).checkIfProtected
        reqFields = (do
      let acc ← (pre.map (ruleItem namespaces commonProfile shieldNamespace)).foldlM
        (RuleTable.checkItem reqFields shieldNamespace) {}
      let acc ← RuleTable.checkItem reqFields shieldNamespace acc
        (ruleItem namespaces commonProfile shieldNamespace p)
      (post.map (ruleItem namespaces commonProfile shieldNamespace)).foldlM
        (RuleTable.checkItem reqFields shieldNamespace) acc) := by
  rw [RuleTable.checkIfProtected, items_newRuleTable, shieldNamespace_newRuleTable, List.map_append,
    List.map_cons, List.foldlM_append]
  rfl

theorem checkIfProtected_append (pre post : List ResourceSigningProfile) :
    (newRuleTable (pre ++ post) namespaces commonProfile shieldNamespace).checkIfProtected
        reqFields = (do
      let acc ← (pre.map (ruleItem namespaces commonProfile shieldNamespace)).foldlM
        (RuleTable.checkItem reqFields shieldNamespace) {}
      (post.map (ruleItem namespaces commonProfile shieldNamespace)).foldlM
        (RuleTable.checkItem reqFields shieldNamespace) acc) := by
  rw [RuleTable.checkIfProtected, items_newRuleTable, shieldNamespace_newRuleTable, List.map_append,
    List.foldlM_append]

/-- A row that never changes the state may be left out. -/
theorem checkIfProtected_insert_eq (pre post : List ResourceSigningProfile)
    {p : ResourceSigningProfile}
    (hskip : ∀ acc, RuleTable.checkItem reqFields shieldNamespace acc
      (ruleItem namespaces commonProfile shieldNamespace p) = .ok acc) :
    (newRuleTable (pre ++ p :: post) namespaces commonProfile shieldNamespace).checkIfProtected
        reqFields =
      (newRuleTable (pre ++ post) namespaces commonProfile shieldNamespace).checkIfProtected
        reqFields := by
  rw [checkIfProtected_insert, checkIfProtected_append]
  congr 1
  funext acc
  rw [hskip acc]
  rfl

/-- **A profile of another namespace does not matter to a namespaced request.** -/
theorem checkIfProtected_insert_namespaced (pre post : List ResourceSigningProfile)
    {p : ResourceSigningProfile} (hns : p.namespace ≠ shieldNamespace)
    (hscope : reqFields.get "ResourceScope" = "Namespaced")
    (hother : reqFields.get "Namespace" ≠ p.namespace) :
    (newRuleTable (pre ++ p :: post) namespaces commonProfile shieldNamespace).checkIfProtected
        reqFields =
      (newRuleTable (pre ++ post) namespaces commonProfile shieldNamespace).checkIfProtected
        reqFields := by
  refine checkIfProtected_insert_eq _ _ _ _ _ _ fun acc => ?_
  have htarget : exactMatchWithPatternArray (reqFields.get "Namespace")
      (ruleItem namespaces commonProfile shieldNamespace p).targetNamespaces = false := by
    rw [← Bool.not_eq_true, exactMatchWithPatternArray_iff, ruleItem, targetNamespaces, if_neg hns,
      List.mem_singleton]
    exact hother
  unfold RuleTable.checkItem
  rw [if_pos ⟨hscope, htarget⟩]

/-- **Nor to the targets of the table**, its own namespace apart. -/
theorem checkIfTargetNamespace_insert (pre post : List ResourceSigningProfile)
    {p : ResourceSigningProfile} (hns : p.namespace ≠ shieldNamespace) {ns : String}
    (hother : ns ≠ p.namespace) :
    (newRuleTable (pre ++ p :: post) namespaces commonProfile
        shieldNamespace).checkIfTargetNamespace ns =
      (newRuleTable (pre ++ post) namespaces commonProfile
        shieldNamespace).checkIfTargetNamespace ns := by
  have hp : ns ∉ targetNamespaces p namespaces shieldNamespace := by
    rw [targetNamespaces, if_neg hns, List.mem_singleton]
    exact hother
  unfold RuleTable.checkIfTargetNamespace
  split
  · rfl
  · rw [Bool.eq_iff_iff, exactMatchWithPatternArray_iff, exactMatchWithPatternArray_iff,
      mem_namespaces_newRuleTable, mem_namespaces_newRuleTable]
    simp only [List.mem_append, List.mem_cons, or_and_right, exists_or, exists_eq_left, hp,
      false_or]

/-- A row whose match faults makes the run fault, wherever it stands. -/
theorem checkIfProtected_eq_error (hscope : reqFields.get "ResourceScope" = "Cluster")
    {profiles : List ResourceSigningProfile}
    (h : ∃ q ∈ profiles, ∃ e,
      (q.merge (commonProfileRSP commonProfile)).matchRequest reqFields shieldNamespace =
        .error e) :
    (newRuleTable profiles namespaces commonProfile shieldNamespace).checkIfProtected reqFields =
      .error .nilDeref := by
  obtain ⟨q, hq, e, he⟩ := h
  obtain rfl := ResourceSigningProfile.matchRequest_error he
  rw [RuleTable.checkIfProtected, items_newRuleTable, shieldNamespace_newRuleTable]
  refine Go.foldlM_eq_error (fun acc item e' h' => (checkItem_error _ _ h').2)
    ⟨_, List.mem_map_of_mem hq, fun acc => ?_⟩ _
  exact (checkItem_cluster shieldNamespace reqFields hscope acc _).1 _ he

/-- A run that faults has a row whose match does. -/
theorem exists_of_checkIfProtected_error {profiles : List ResourceSigningProfile} {e : Fault}
    (h : (newRuleTable profiles namespaces commonProfile shieldNamespace).checkIfProtected
      reqFields = .error e) :
    ∃ q ∈ profiles, ∃ e,
      (q.merge (commonProfileRSP commonProfile)).matchRequest reqFields shieldNamespace =
        .error e := by
  rw [RuleTable.checkIfProtected, items_newRuleTable, shieldNamespace_newRuleTable] at h
  obtain ⟨item, hitem, acc, he⟩ := Go.exists_of_foldlM_error h
  obtain ⟨q, hq, rfl⟩ := List.mem_map.1 hitem
  exact ⟨q, hq, e, (checkItem_error _ _ he).1⟩

/-- **When a profile of a tenant leaves others alone.**  A profile outside the
shield's namespace changes nothing for a namespaced request of another
namespace.  It changes the answer to a cluster-scoped request only if one of its
rules names the request exactly, precisely if one does, or no list of rules or
match patterns of it has a null entry, or the match of some other profile faults
on the request anyway. -/
theorem checkIfProtected_insert_iff (pre post : List ResourceSigningProfile)
    (p : ResourceSigningProfile) (hns : p.namespace ≠ shieldNamespace) :
    ((reqFields.get "ResourceScope" = "Namespaced" → reqFields.get "Namespace" ≠ p.namespace →
        (newRuleTable (pre ++ p :: post) namespaces commonProfile
            shieldNamespace).checkIfTargetNamespace (reqFields.get "Namespace") =
          (newRuleTable (pre ++ post) namespaces commonProfile
            shieldNamespace).checkIfTargetNamespace (reqFields.get "Namespace") ∧
        (newRuleTable (pre ++ p :: post) namespaces commonProfile shieldNamespace).checkIfProtected
            reqFields =
          (newRuleTable (pre ++ post) namespaces commonProfile shieldNamespace).checkIfProtected
            reqFields) ∧
      (reqFields.get "ResourceScope" = "Cluster" →
        (newRuleTable (pre ++ p :: post) namespaces commonProfile shieldNamespace).checkIfProtected
            reqFields ≠
          (newRuleTable (pre ++ post) namespaces commonProfile shieldNamespace).checkIfProtected
            reqFields →
        NamesRequest (mergedRules commonProfile p) reqFields)) ↔
      (reqFields.get "ResourceScope" = "Cluster" →
        NamesRequest (mergedRules commonProfile p) reqFields ∨
          ¬ NullMatch (mergedRules commonProfile p) ∨
          ∃ q ∈ pre ++ post, ∃ e,
            (q.merge (commonProfileRSP commonProfile)).matchRequest reqFields shieldNamespace =
              .error e) := by
  have hmem : p ∈ pre ++ p :: post := List.mem_append_right pre (List.mem_cons_self ..)
  constructor
  · rintro ⟨_, hcluster⟩ hscope
    by_contra hnot
    rw [not_or, not_or, not_not] at hnot
    obtain ⟨hname, hnull, hothers⟩ := hnot
    have hcl := requestScope_eq_cluster hscope
    have hfault := (matchRequest_merge_unnamed commonProfile shieldNamespace reqFields hns hcl
      hname).2 hnull
    have hwith := checkIfProtected_eq_error namespaces commonProfile shieldNamespace reqFields
      hscope ⟨p, hmem, _, hfault⟩
    refine hname (hcluster hscope fun heq => hothers ?_)
    exact exists_of_checkIfProtected_error namespaces commonProfile shieldNamespace reqFields
      (heq ▸ hwith)
  · intro hcond
    refine ⟨fun hscope hother => ⟨?_, ?_⟩, fun hscope hne => ?_⟩
    · exact checkIfTargetNamespace_insert namespaces commonProfile shieldNamespace pre post hns
        hother
    · exact checkIfProtected_insert_namespaced namespaces commonProfile shieldNamespace reqFields
        pre post hns hscope hother
    · by_contra hname
      have hcl := requestScope_eq_cluster hscope
      obtain ⟨hok, herr⟩ := matchRequest_merge_unnamed commonProfile shieldNamespace reqFields hns
        hcl hname
      by_cases hnull : NullMatch (mergedRules commonProfile p)
      · have hothers := ((hcond hscope).resolve_left hname).resolve_left (not_not.2 hnull)
        refine hne ((checkIfProtected_eq_error namespaces commonProfile shieldNamespace reqFields
          hscope ⟨p, hmem, _, herr hnull⟩).trans ?_)
        exact (checkIfProtected_eq_error namespaces commonProfile shieldNamespace reqFields
          hscope hothers).symm
      · refine hne (checkIfProtected_insert_eq _ _ _ _ _ _ fun acc => ?_)
        exact (checkItem_cluster shieldNamespace reqFields hscope acc _).2 (hok hnull)

/-- A request for the cluster role `reader`. -/
def clusterRoleFields : ReqFields :=
  GoMap.writes ∅ [("ResourceScope", "Cluster"), ("Kind", "ClusterRole"), ("Name", "reader")]

/-- A tenant's profile with a rule that has no null entry. -/
def tenantProfile : ResourceSigningProfile where
  «namespace» := "tenant"
  spec := { protectRules := [some { matches_ := [some { kind := some "*" }] }] }

theorem checkIfProtected_insert_tenant :
    tenantProfile.namespace ≠ "ishield" ∧
      ((newRuleTable [tenantProfile] [] none "ishield").checkIfProtected clusterRoleFields ≠
          (newRuleTable [] [] none "ishield").checkIfProtected clusterRoleFields →
        NamesRequest (mergedRules none tenantProfile) clusterRoleFields) := by
  refine ⟨by decide, fun hne => ?_⟩
  refine ((checkIfProtected_insert_iff [] none "ishield" clusterRoleFields [] [] tenantProfile
    (by decide)).2 fun _ => Or.inr (Or.inl ?_)).2 rfl hne
  rintro (h | ⟨rule, hrule, h⟩)
  · exact absurd h (by decide)
  · obtain rfl := Option.some.inj (List.mem_singleton.1 hrule)
    exact absurd h (by decide)

/-- A tenant's profile whose only match pattern is null. -/
def nullProfile : ResourceSigningProfile where
  «namespace» := "tenant"
  spec := { protectRules := [some { matches_ := [none] }] }

/-- **A tenant's null entry ends the check of a cluster role it does not name.** -/
theorem checkIfProtected_nullProfile :
    nullProfile.namespace ≠ "ishield" ∧ clusterRoleFields.get "ResourceScope" = "Cluster" ∧
      (newRuleTable [nullProfile] [] none "ishield").checkIfProtected clusterRoleFields =
        .error .nilDeref ∧
      (newRuleTable [] [] none "ishield").checkIfProtected clusterRoleFields = .ok {} ∧
      ¬ NamesRequest (mergedRules none nullProfile) clusterRoleFields := by
  refine ⟨by decide, rfl, rfl, rfl, ?_⟩
  rintro ⟨rule, hrule, p, hp, _⟩
  obtain rfl := Option.some.inj (List.mem_singleton.1 hrule)
  cases List.mem_singleton.1 hp

end Shield
end IntegrityShield
