/-
# Signing profiles

`shield/pkg/apis/resourcesigningprofile/v1alpha1/types.go`: which rule of a
profile decides about a request, and which of its attribute and kustomize
patterns apply to it.

A force-check rule comes before an ignore rule, and that before a protect rule.
A cluster-scoped request is matched strictly, that is by its exact name, unless
the profile lies in the shield's own namespace.
-/

import IntegrityShield.Common.Matching

namespace IntegrityShield
namespace Apis

open Common

/-- `ResourceSigningProfileSpec`. -/
structure ResourceSigningProfileSpec where
  targetNamespaceSelector : Option NamespaceSelector := none
  protectRules : List (Option Rule) := []
  ignoreRules : List (Option Rule) := []
  forceCheckRules : List (Option Rule) := []
  kustomizePatterns : List (Option KustomizePattern) := []
  protectAttrs : List (Option AttrsPattern) := []
  unprotectAttrs : List (Option AttrsPattern) := []
  ignoreAttrs : List (Option AttrsPattern) := []

/-- `ResourceSigningProfile`. -/
structure ResourceSigningProfile where
  name : String := ""
  «namespace» : String := ""
  spec : ResourceSigningProfileSpec := {}

namespace ResourceSigningProfile

/-- Whether a profile is matched strictly against a request. -/
def strictMatch (self : ResourceSigningProfile) (reqFields : ReqFields) (iShieldNS : String) :
    Bool :=
  decide (requestScope reqFields = "Cluster") && decide (self.namespace ≠ iShieldNS)

/-- One loop of `Match`: the first rule of a list that matches. -/
def findRule (rules : List (Option Rule)) (strict : Bool) (reqFields : ReqFields) :
    Go (Option Rule) := do
  let found ← rules.findM? fun rule => Rule.matchBy strict rule reqFields
  return found.join

/-- `ResourceSigningProfile.Match`: whether the request is protected, and the
rule that decided. -/
def matchRequest (self : ResourceSigningProfile) (reqFields : ReqFields) (iShieldNS : String) :
    Go (Bool × Option Rule) := do
  let strict := self.strictMatch reqFields iShieldNS
  match ← findRule self.spec.forceCheckRules strict reqFields with
  | some rule => return (true, some rule)
  | none =>
      match ← findRule self.spec.ignoreRules strict reqFields with
      | some rule => return (false, some rule)
      | none =>
          match ← findRule self.spec.protectRules strict reqFields with
          | some rule => return (true, some rule)
          | none => return (false, none)

/-- `ResourceSigningProfile.Merge`. -/
def merge (self another : ResourceSigningProfile) : ResourceSigningProfile :=
  { self with
    spec := { self.spec with
      protectRules := self.spec.protectRules ++ another.spec.protectRules
      ignoreRules := self.spec.ignoreRules ++ another.spec.ignoreRules
      forceCheckRules := self.spec.forceCheckRules ++ another.spec.forceCheckRules
      protectAttrs := self.spec.protectAttrs ++ another.spec.protectAttrs
      ignoreAttrs := self.spec.ignoreAttrs ++ another.spec.ignoreAttrs } }

/-- `ResourceSigningProfile.Kustomize`. -/
def kustomize (self : ResourceSigningProfile) (reqFields : ReqFields) :
    Go (List KustomizePattern) := do
  let patterns ← Go.filter (fun p => KustomizePattern.matchWith p reqFields)
    self.spec.kustomizePatterns
  return patterns.reduceOption

/-- The attribute patterns of a list that match a request. -/
def matchingAttrs (patterns : List (Option AttrsPattern)) (reqFields : ReqFields) :
    Go (List AttrsPattern) := do
  let matched ← Go.filter (fun p => AttrsPattern.matchWith p reqFields) patterns
  return matched.reduceOption

/-- `ResourceSigningProfile.ProtectAttrs`. -/
def protectAttrs (self : ResourceSigningProfile) (reqFields : ReqFields) :
    Go (List AttrsPattern) :=
  matchingAttrs self.spec.protectAttrs reqFields

/-- `ResourceSigningProfile.IgnoreAttrs`, the deprecated `UnprotectAttrs` after
the others. -/
def ignoreAttrs (self : ResourceSigningProfile) (reqFields : ReqFields) :
    Go (List AttrsPattern) := do
  let patterns ← matchingAttrs self.spec.ignoreAttrs reqFields
  let unprotect ← matchingAttrs self.spec.unprotectAttrs reqFields
  return patterns ++ unprotect

/-- The attribute patterns of a list that fit a request; a null one faults. -/
theorem matchingAttrs_eq (patterns : List (Option AttrsPattern)) (reqFields : ReqFields) :
    matchingAttrs patterns reqFields =
      if none ∈ patterns then .error .nilDeref
      else .ok (patterns.reduceOption.filter fun p => decide (p.Fits reqFields)) := by
  have hfilter : ∀ l : List (Option AttrsPattern),
      Go.filter (fun p => AttrsPattern.matchWith p reqFields) l =
        if none ∈ l then .error .nilDeref
        else .ok (l.filter fun p => p.any fun p => decide (p.Fits reqFields)) := by
    intro l
    induction l with
    | nil => rfl
    | cons p rest ih =>
        cases p with
        | none => exact (if_pos (List.mem_cons_self ..)).symm
        | some p =>
            have hmem : none ∈ some p :: rest ↔ none ∈ rest := by simp
            rw [Go.filter, matchWith_some, ih]
            by_cases h : none ∈ rest
            · rw [if_pos h, if_pos (hmem.2 h)]
              rfl
            · rw [if_neg h, if_neg (fun h' => h (hmem.1 h')), List.filter_cons]
              rfl
  have hreduce : ∀ l : List (Option AttrsPattern),
      (l.filter fun p => p.any fun p => decide (p.Fits reqFields)).reduceOption =
        l.reduceOption.filter fun p => decide (p.Fits reqFields) := by
    intro l
    induction l with
    | nil => rfl
    | cons p rest ih =>
        cases p with
        | none => simpa using ih
        | some p => by_cases h : p.Fits reqFields <;> simp [h, ih]
  rw [matchingAttrs, hfilter]
  split
  · rfl
  · exact congrArg Except.ok (hreduce patterns)

/-- The patterns of allowed attributes that fit a request. -/
def allowedAttrs (self : ResourceSigningProfile) (reqFields : ReqFields) : List AttrsPattern :=
  (self.spec.ignoreAttrs ++ self.spec.unprotectAttrs).reduceOption.filter fun p =>
    decide (p.Fits reqFields)

/-- **The allowed attributes are those of the patterns that fit**, unless one is
null. -/
theorem ignoreAttrs_eq (self : ResourceSigningProfile) (reqFields : ReqFields) :
    self.ignoreAttrs reqFields =
      if none ∈ self.spec.ignoreAttrs ++ self.spec.unprotectAttrs then .error .nilDeref
      else .ok (self.allowedAttrs reqFields) := by
  rw [ignoreAttrs, matchingAttrs_eq, matchingAttrs_eq, allowedAttrs, List.reduceOption_append,
    List.filter_append]
  by_cases h₁ : none ∈ self.spec.ignoreAttrs
  · rw [if_pos h₁, if_pos (List.mem_append_left _ h₁)]
    rfl
  · by_cases h₂ : none ∈ self.spec.unprotectAttrs
    · rw [if_neg h₁, if_pos h₂, if_pos (List.mem_append_right _ h₂)]
      rfl
    · have h : none ∉ self.spec.ignoreAttrs ++ self.spec.unprotectAttrs := fun h =>
        (List.mem_append.1 h).elim h₁ h₂
      rw [if_neg h₁, if_neg h₂, if_neg h]
      rfl

end ResourceSigningProfile

end Apis
end IntegrityShield
