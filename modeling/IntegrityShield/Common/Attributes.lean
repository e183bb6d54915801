/-
# What a request pattern sees of a request

`RequestPattern.Match` of `ReqContext.Map`: the fields of the pattern are looked
up under their own names among the string fields of the request.  Six of the
eight names are fields of both structs.  `Scope` is called `ResourceScope` in the
request, and `UserGroup` stands for a list there, which the map leaves out; both
are looked up in vain, and the pattern is matched against the empty string
(`matchLoose_map`).
-/

import IntegrityShield.Common.Matching
import IntegrityShield.Common.Reqcontext

namespace IntegrityShield
namespace Common

/-- What the names of the fields of a pattern give in the map of a request. -/
theorem get_map (reqc : ReqContext) :
    reqc.map.get "Scope" = "" ∧ reqc.map.get "ApiGroup" = reqc.apiGroup ∧
    reqc.map.get "ApiVersion" = reqc.apiVersion ∧ reqc.map.get "Kind" = reqc.kind ∧
    reqc.map.get "Name" = reqc.name ∧ reqc.map.get "Operation" = reqc.operation ∧
    reqc.map.get "UserName" = reqc.userName ∧ reqc.map.get "UserGroup" = "" := by
  simp only [ReqContext.map, ReqFields.get, GoMap.lookup_writes]
  simp [GoMap.lastAt]

theorem get_map_resourceScope (reqc : ReqContext) :
    reqc.map.get "ResourceScope" = reqc.resourceScope := by
  simp only [ReqContext.map, ReqFields.get, GoMap.lookup_writes]
  simp [GoMap.lastAt]

theorem get_map_namespace (reqc : ReqContext) : reqc.map.get "Namespace" = reqc.namespace := by
  simp only [ReqContext.map, ReqFields.get, GoMap.lookup_writes]
  simp [GoMap.lastAt]

/-- A field of a pattern matches a value if it is set. -/
def SetMatches (field : Option String) (value : String) : Prop :=
  ∀ pattern ∈ field, matchPattern pattern value = true

/-- A field of a pattern matches one of several values if it is set. -/
def SetMatchesOneOf (field : Option String) (values : List String) : Prop :=
  ∀ pattern ∈ field, ∃ value ∈ values, matchPattern pattern value = true

instance (field : Option String) (value : String) : Decidable (SetMatches field value) :=
  inferInstanceAs (Decidable (∀ pattern ∈ field, _))

instance (field : Option String) (values : List String) :
    Decidable (SetMatchesOneOf field values) :=
  inferInstanceAs (Decidable (∀ pattern ∈ field, ∃ value ∈ values, _))

namespace RequestPattern

/-- The set fields match, apart from the scope and the user group. -/
def OtherFieldsMatch (p : RequestPattern) (reqc : ReqContext) : Prop :=
  SetMatches p.apiGroup reqc.apiGroup ∧ SetMatches p.apiVersion reqc.apiVersion ∧
  SetMatches p.kind reqc.kind ∧ SetMatches p.name reqc.name ∧
  SetMatches p.operation reqc.operation ∧ SetMatches p.userName reqc.userName

instance (p : RequestPattern) (reqc : ReqContext) : Decidable (p.OtherFieldsMatch reqc) :=
  inferInstanceAs (Decidable (_ ∧ _))

/-- A pattern is meant to match a request: a field is set, and every set field
matches the attribute of the request that it is about. -/
def MatchesAttributes (p : RequestPattern) (reqc : ReqContext) : Prop :=
  (∃ f ∈ p.fields, f.2 ≠ none) ∧ p.OtherFieldsMatch reqc ∧
    SetMatches p.scope reqc.resourceScope ∧ SetMatchesOneOf p.userGroup reqc.userGroups

instance (p : RequestPattern) (reqc : ReqContext) : Decidable (p.MatchesAttributes reqc) :=
  inferInstanceAs (Decidable (_ ∧ _))

/-- **What `Match` computes** on the map of a request. -/
theorem matchLoose_map (p : RequestPattern) (reqc : ReqContext) :
    matchLoose (some p) reqc.map = .ok true ↔
      (∃ f ∈ p.fields, f.2 ≠ none) ∧ p.OtherFieldsMatch reqc ∧
        SetMatches p.scope "" ∧ SetMatches p.userGroup "" := by
  obtain ⟨hscope, hgroup, hversion, hkind, hname, hoperation, huser, husers⟩ := get_map reqc
  have hloose : false = true → requestScope reqc.map = "Cluster" :=
    fun h => absurd h Bool.false_ne_true
  have hfields : (∀ f ∈ p.fields, ∀ pattern ∈ f.2,
      matchPattern pattern (reqc.map.get f.1) = true) ↔
      p.OtherFieldsMatch reqc ∧ SetMatches p.scope "" ∧ SetMatches p.userGroup "" := by
    simp only [fields, List.forall_mem_cons, hscope, hgroup, hversion, hkind, hname, hoperation,
      huser, husers, OtherFieldsMatch, SetMatches]
    constructor
    · rintro ⟨h₁, h₂, h₃, h₄, h₅, h₆, h₇, h₈, _⟩
      exact ⟨⟨h₂, h₃, h₄, h₅, h₆, h₇⟩, h₁, h₈⟩
    · rintro ⟨⟨h₂, h₃, h₄, h₅, h₆, h₇⟩, h₁, h₈⟩
      exact ⟨h₁, h₂, h₃, h₄, h₅, h₆, h₇, h₈, fun _ h => absurd h List.not_mem_nil⟩
  rw [matchLoose, matchRequest_some hloose, Except.ok.injEq, decide_eq_true_iff, Fits, ← hfields]
  simp

/-- **When a pattern matches as it is meant to.**  Precisely if some set field
other than the scope and the user group does not match, or the two of them, if
set, match the empty string exactly when they match the scope of the request and
one of the groups of its user. -/
theorem matchLoose_attributes_iff (p : RequestPattern) (reqc : ReqContext) :
    (matchLoose (some p) reqc.map = .ok true ↔ p.MatchesAttributes reqc) ↔
      (p.OtherFieldsMatch reqc →
        (SetMatches p.scope "" ∧ SetMatches p.userGroup "" ↔
          SetMatches p.scope reqc.resourceScope ∧
            SetMatchesOneOf p.userGroup reqc.userGroups)) := by
  rw [matchLoose_map, MatchesAttributes, and_congr_right_iff, and_congr_right_iff]
  constructor
  · intro h hothers
    by_cases hset : ∃ f ∈ p.fields, f.2 ≠ none
    · exact h hset hothers
    · -- with no field set there is nothing to match
      have hnone : ∀ f ∈ p.fields, f.2 = none := by
        intro f hf
        by_contra hne
        exact hset ⟨f, hf, hne⟩
      have hscope : p.scope = none := hnone ("Scope", p.scope) (by simp [fields])
      have hgroup : p.userGroup = none := hnone ("UserGroup", p.userGroup) (by simp [fields])
      simp [hscope, hgroup, SetMatches, SetMatchesOneOf]
  · exact fun h _ hothers => h hothers

end RequestPattern

/-- **A pattern with a scope.**  It is meant for the config maps of every
namespace, and does not match the creation of one. -/
theorem matchLoose_scope_false :
    let p : RequestPattern := { scope := some "Namespaced", kind := some "ConfigMap" }
    let reqc : ReqContext := {
      resourceScope := "Namespaced", kind := "ConfigMap", operation := "CREATE", name := "cm",
      «namespace» := "ns" }
    RequestPattern.matchLoose (some p) reqc.map = .ok false ∧ p.MatchesAttributes reqc := by
  decide +kernel

end Common
end IntegrityShield
