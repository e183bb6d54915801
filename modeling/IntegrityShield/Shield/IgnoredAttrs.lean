/-
# The attributes that the two checks ignore

A profile lists attributes that may differ, each list with patterns for the requests it is about.
The signature check takes those of all patterns that match the request
(`ResourceVerifier.Verify` in `shield/pkg/shield/signVerifier.go`).  The mutation check takes the
same patterns, and `generateMaskKeys` of `shield/pkg/shield/utilMutation.go` matches them once more,
with a map of five fields that it builds from its arguments.  A pattern with an API group, a
version or an operation reads an empty string there, and its attributes are lost
(`generateMaskKeys_operation`).

`generateMaskKeys_eq_attrs_iff` says for which profiles and requests the two lists agree.
-/

import IntegrityShield.Common.Attributes
import IntegrityShield.Shield.Mutation

namespace IntegrityShield
namespace Shield

open Common Apis

/-- The attributes of the patterns of a list that are kept are all of them exactly if the others
have none. -/
theorem flatMap_filter_eq_iff {α β : Type} (p : α → Bool) (f : α → List β) (l : List α) :
    (l.filter p).flatMap f = l.flatMap f ↔ ∀ a ∈ l, f a ≠ [] → p a = true := by
  induction l with
  | nil => simp
  | cons a rest ih =>
      rw [List.forall_mem_cons, ← ih, List.flatMap_cons]
      cases ha : p a with
      | true =>
          rw [List.filter_cons_of_pos ha, List.flatMap_cons, List.append_cancel_left_eq]
          exact (and_iff_right fun _ => rfl).symm
      | false =>
          rw [List.filter_cons_of_neg (by simp [ha])]
          have hlength : ((rest.filter p).flatMap f).length ≤ (rest.flatMap f).length :=
            (List.filter_sublist.flatMap f).length_le
          constructor
          · intro heq
            have hsum := congrArg List.length heq
            rw [List.length_append] at hsum
            have hnil : f a = [] := List.length_eq_zero_iff.1 (by omega)
            rw [hnil, List.nil_append] at heq
            exact ⟨fun hne => absurd hnil hne, heq⟩
          · rintro ⟨hnil, heq⟩
            have hnil : f a = [] := by
              by_contra hne
              exact Bool.false_ne_true (hnil hne)
            rw [heq, hnil, List.nil_append]

/-- A request without its API group and version and its operation. -/
def withoutOperation (reqc : ReqContext) : ReqContext :=
  { reqc with apiGroup := "", apiVersion := "", operation := "" }

/-- What the names of the fields of a pattern give among the fields of `generateMaskKeys`. -/
theorem get_maskKeyFields (reqc : ReqContext) :
    (maskKeyFields reqc).get "Scope" = "" ∧ (maskKeyFields reqc).get "ApiGroup" = "" ∧
    (maskKeyFields reqc).get "ApiVersion" = "" ∧ (maskKeyFields reqc).get "Kind" = reqc.kind ∧
    (maskKeyFields reqc).get "Name" = reqc.name ∧ (maskKeyFields reqc).get "Operation" = "" ∧
    (maskKeyFields reqc).get "UserName" = reqc.userName ∧
    (maskKeyFields reqc).get "UserGroup" = "" := by
  simp only [maskKeyFields, ReqFields.get, GoMap.lookup_writes]
  simp [GoMap.lastAt]

/-- They show such a request to a pattern. -/
theorem fits_maskKeyFields (p : RequestPattern) (reqc : ReqContext) :
    p.Fits (maskKeyFields reqc) false ↔ p.Fits (withoutOperation reqc).map false := by
  have hget : ∀ f ∈ p.fields, (maskKeyFields reqc).get f.1 =
      (withoutOperation reqc).map.get f.1 := by
    obtain ⟨hscope, hgroup, hversion, hkind, hname, hoperation, huser, husers⟩ :=
      get_map (withoutOperation reqc)
    obtain ⟨hscope', hgroup', hversion', hkind', hname', hoperation', huser', husers'⟩ :=
      get_maskKeyFields reqc
    simp only [RequestPattern.fields, List.forall_mem_cons]
    exact ⟨hscope'.trans hscope.symm, hgroup'.trans hgroup.symm, hversion'.trans hversion.symm,
      hkind'.trans hkind.symm, hname'.trans hname.symm, hoperation'.trans hoperation.symm,
      huser'.trans huser.symm, husers'.trans husers.symm, fun _ h => absurd h List.not_mem_nil⟩
  rw [RequestPattern.Fits, RequestPattern.Fits]
  refine and_congr_right fun _ => and_congr (by simp) ?_
  refine forall₂_congr fun f hf => ?_
  rw [hget f hf]

theorem attrsFits_maskKeyFields (pattern : AttrsPattern) (reqc : ReqContext) :
    pattern.Fits (maskKeyFields reqc) ↔ pattern.Fits (withoutOperation reqc).map :=
  exists_congr fun p => and_congr_right fun _ => fits_maskKeyFields p reqc

/-- **When both checks ignore the same attributes**: a null entry ends both, or every pattern with
attributes that matches the request also matches it without its API group, its version and its
operation. -/
theorem generateMaskKeys_eq_attrs_iff (signingProfile : ResourceSigningProfile)
    (reqc : ReqContext) :
    (∀ rules, signingProfile.ignoreAttrs reqc.map = .ok rules →
        generateMaskKeys rules (maskKeyFields reqc) = .ok (rules.flatMap AttrsPattern.attrs)) ↔
      none ∈ signingProfile.spec.ignoreAttrs ++ signingProfile.spec.unprotectAttrs ∨
        ∀ pattern,
          some pattern ∈ signingProfile.spec.ignoreAttrs ++ signingProfile.spec.unprotectAttrs →
          pattern.Fits reqc.map → pattern.attrs ≠ [] → pattern.Fits (withoutOperation reqc).map := by
  rw [ResourceSigningProfile.ignoreAttrs_eq]
  split_ifs with hnull
  · exact iff_of_true (fun _ h => by cases h) (.inl hnull)
  · rw [or_iff_right hnull]
    simp only [Except.ok.injEq, forall_eq', generateMaskKeys_eq, flatMap_filter_eq_iff,
      ResourceSigningProfile.allowedAttrs, List.mem_filter, List.reduceOption_mem_iff,
      decide_eq_true_eq, attrsFits_maskKeyFields, and_imp]

/-- A pattern for updates: the signature check ignores its attribute, the mutation check does not. -/
theorem generateMaskKeys_operation :
    let pattern : AttrsPattern :=
      { matches_ := [some { kind := some "Pod", operation := some "UPDATE" }]
        attrs := ["spec.replicas"] }
    let signingProfile : ResourceSigningProfile := { spec := { ignoreAttrs := [some pattern] } }
    signingProfile.ignoreAttrs podUpdate.map = .ok [pattern] ∧
      generateMaskKeys [pattern] (maskKeyFields podUpdate) = .ok [] := by
  decide +kernel

end Shield
end IntegrityShield
