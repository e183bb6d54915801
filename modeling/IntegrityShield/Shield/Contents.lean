/-
# Comparing the contents of a message and an object

`matchContents`, `getMaskDef`, `IsPatchWithScopeKey` and `CommonMessageMask` of
`shield/pkg/shield/signVerifier.go`.

With a focus, the two objects are reduced to the parts the focus names by
`Node.Extract`, which masks everything else: it derives the keys to mask from
the paths of the object itself, and those keys go through the parser and the
wildcard matcher like keys of a profile.  A path with a `*` or a quote in it
then masks more than itself.  `matchContents_matched_iff` says what is compared,
`matchContents_focus_iff` when this covers the focus.
-/

import IntegrityShield.Shield.Outside

namespace IntegrityShield
namespace Shield

open Common Mapnode

def signedByAnnotationKey : String := "integrityshield.io/signedBy"
def lastVerifiedTimestampAnnotationKey : String := "integrityshield.io/lastVerifiedTimestamp"
def resourceSignatureUIDAnnotationKey : String := "integrityshield.io/resourceSignatureUID"

/-- `CommonMessageMask`. -/
def commonMessageMask : List String :=
  ["metadata.labels.\"" ++ resourceIntegrityLabelKey ++ "\""] ++
  [signedByAnnotationKey, lastVerifiedTimestampAnnotationKey, resourceSignatureUIDAnnotationKey,
    signatureAnnotationKey, messageAnnotationKey, certificateAnnotationKey,
    signatureTypeAnnotationKey, messageScopeAnnotationKey, mutableAttrsAnnotationKey].map
      (fun key => "metadata.annotations.\"" ++ key ++ "\"") ++
  ["metadata.annotations.namespace",
    "metadata.annotations.kubectl.\"kubernetes.io/last-applied-configuration\"",
    "metadata.managedFields",
    "metadata.creationTimestamp",
    "metadata.generation",
    "metadata.annotations.deprecated.daemonset.template.generation",
    "metadata.namespace",
    "metadata.resourceVersion",
    "metadata.selfLink",
    "metadata.uid"]

/-- `getMaskDef`: the common mask, and once more for the kind `*`. -/
def getMaskDef (kind : String) : List String :=
  commonMessageMask ++ if kind = "*" then commonMessageMask else []

/-- `SplitCommaSeparatedKeys`. -/
def splitCommaSeparatedKeys (key : String) : List String :=
  (Strings.split (Strings.replaceAll key "\n" "") ',').map fun k => Strings.trim k " "

section Check

variable [Outside]

/-- `matchContents`, and the slice of focus keys as it is left. -/
def matchContents (orgObj : Bytes) (reqObj : Option Bytes) (focus mask : List String)
    (allowDiffPatterns : List Difference) (excludeDiffValue : Bool) :
    Go ((Bool × String) × List String) :=
  match newFromYamlBytes orgObj, newFromBytes reqObj with
  | .ok orgNode, .ok reqNode => do
      let (orgNodeToCompare, reqNodeToCompare, focus) ←
        if 0 < focus.length then do
          let (orgExtracted, focus) ← orgNode.extract focus
          let (reqExtracted, focus) ← reqNode.extract focus
          pure (orgExtracted, reqExtracted, focus)
        else do
          let (orgMasked, mask) ← orgNode.mask mask
          let (reqMasked, _) ← reqNode.mask mask
          pure (orgMasked, reqMasked, focus)
      match orgNodeToCompare.diff reqNodeToCompare with
      | none => return ((true, ""), focus)
      | some dr =>
          -- `Remove` never gives nil, so an allowed difference is reported empty
          let dr := if 0 < allowDiffPatterns.length then dr.remove allowDiffPatterns else dr
          return ((false, if excludeDiffValue then diffKeyString dr else diffString dr), focus)
  | _, _ => return ((false, ""), focus)

/-- `ResourceVerifier.IsPatchWithScopeKey`. -/
def isPatchWithScopeKey (orgObj rawObj : Option Bytes) (scope : String) (excludeDiffValue : Bool) :
    Go Bool := do
  let mask := getMaskDef "" ++ splitCommaSeparatedKeys scope
  let (result, _) ← matchContents (orgObj.getD "") rawObj [] mask [] excludeDiffValue
  return result.1

/-- The leaves of a tree that `Extract` leaves for a focus of plain keys: those
below no path that a derived key covers. -/
def extractedLeaves (n : Node) (focus : List String) : Go (List (String × Scalar)) := do
  let (keys, _) ← n.validateKeyList (n.ravel.keys.flatMap (extractMaskKeys focus))
  return n.keptLeavesFrom (fun path => keys.any (isListed path)) "" ""

/-- `Extract` by a plain focus. -/
theorem extract_eq {focus : List String} (hplain : ∀ k ∈ focus, PlainKey k) (n : Node) :
    (∃ fault, extractedLeaves n focus = .error fault ∧ n.extract focus = .error fault) ∨
      ∃ extracted, n.extract focus = .ok (extracted, focus) ∧
        extractedLeaves n focus = .ok extracted.leaves := by
  have hparse : focus.map parseConcatKey = focus :=
    (List.map_congr_left fun k hk => (hplain k hk).parseConcatKey_eq).trans (List.map_id _)
  have hvalid : n.validateKeyList focus = .ok (focus, focus) := by
    rw [validateKeyList_of_no_brackets, hparse]
    intro k hk
    rw [(hplain k hk).parseConcatKey_eq]
    exact (hplain k hk).no_brackets
  simp only [Node.extract, extractedLeaves, Node.mask, hvalid, bind, Except.bind, pure, Except.pure]
  cases n.validateKeyList (n.ravel.keys.flatMap (extractMaskKeys focus)) with
  | error fault => exact Or.inl ⟨fault, rfl, rfl⟩
  | ok keys => exact Or.inr ⟨_, rfl, congrArg _ (leavesFrom_recursiveMask keys.1 "" "" n).symm⟩

/-- Whether contents match without a focus: the masked trees do not differ. -/
theorem matchContents_unfocused {orgObj : Bytes} {reqObj : Option Bytes} {org req om rm : Node}
    {mask mask' mask'' : List String} (horg : newFromYamlBytes orgObj = .ok org)
    (hreq : newFromBytes reqObj = .ok req) (horgMask : org.mask mask = .ok (om, mask'))
    (hreqMask : req.mask mask' = .ok (rm, mask'')) (allowDiffPatterns : List Difference)
    (excludeDiffValue : Bool) :
    (matchContents orgObj reqObj [] mask allowDiffPatterns excludeDiffValue).map (·.1.1) =
      .ok (om.diff rm).isNone := by
  simp only [matchContents, horg, hreq, horgMask, hreqMask, List.length_nil, lt_irrefl, if_false,
    bind, Except.bind, pure, Except.pure]
  cases om.diff rm <;> rfl

/-- **What is compared without a focus**: the masked objects, the mask parsed once for the signed
document and once more for the request. -/
theorem matchContents_unfocused_iff {orgObj : Bytes} {reqObj : Option Bytes} {org req : Node}
    (horg : newFromYamlBytes orgObj = .ok org) (hreq : newFromBytes reqObj = .ok req)
    (mask : List String) (allowDiffPatterns : List Difference) (excludeDiffValue : Bool) :
    (∃ diffStr left, matchContents orgObj reqObj [] mask allowDiffPatterns excludeDiffValue =
        .ok ((true, diffStr), left)) ↔
      ∃ once parsed twice left, org.validateKeyList mask = .ok (once, parsed) ∧
        req.validateKeyList parsed = .ok (twice, left) ∧ ∀ path,
          (org.recursiveMask once "").valueAt path = (req.recursiveMask twice "").valueAt path := by
  constructor
  · rintro ⟨diffStr, left, h⟩
    cases honce : org.validateKeyList mask with
    | error fault =>
        simp [matchContents, horg, hreq, Node.mask, honce, bind, Except.bind] at h
    | ok keys =>
        cases htwice : req.validateKeyList keys.2 with
        | error fault =>
            simp [matchContents, horg, hreq, Node.mask, honce, htwice, bind, Except.bind, pure,
              Except.pure] at h
        | ok keys' =>
            have hmatch := matchContents_unfocused horg hreq (mask_of_validateKeyList honce)
              (mask_of_validateKeyList htwice) allowDiffPatterns excludeDiffValue
            rw [h] at hmatch
            refine ⟨keys.1, keys.2, keys'.1, keys'.2, rfl, htwice, ?_⟩
            exact (diff_eq_none_iff _ _).1 (Option.isNone_iff_eq_none.1 (Except.ok.inj hmatch).symm)
  · rintro ⟨once, parsed, twice, left, honce, htwice, hsame⟩
    have hmatch := matchContents_unfocused horg hreq (mask_of_validateKeyList honce)
      (mask_of_validateKeyList htwice) allowDiffPatterns excludeDiffValue
    rw [(diff_eq_none_iff _ _).2 hsame] at hmatch
    cases h : matchContents orgObj reqObj [] mask allowDiffPatterns excludeDiffValue with
    | error fault =>
        rw [h] at hmatch
        cases hmatch
    | ok res =>
        rw [h] at hmatch
        obtain ⟨⟨matched, diffStr⟩, left⟩ := res
        obtain rfl : matched = true := Except.ok.inj hmatch
        exact ⟨diffStr, left, rfl⟩

/-- **What a plain focus compares.**  Contents match exactly when both objects
can be extracted and what is left of them shows the same values. -/
theorem matchContents_matched_iff {orgObj : Bytes} {reqObj : Option Bytes} {org req : JsonMap}
    (horg : Outside.yamlUnmarshal orgObj = .ok org)
    (hreq : Outside.jsonUnmarshal (reqObj.getD "") = .ok req) {focus : List String}
    (hne : focus ≠ []) (hplain : ∀ k ∈ focus, PlainKey k) (mask : List String)
    (allowDiffPatterns : List Difference) (excludeDiffValue : Bool) :
    (∃ diffStr left, matchContents orgObj reqObj focus mask allowDiffPatterns excludeDiffValue =
        .ok ((true, diffStr), left)) ↔
      ∃ orgLeaves reqLeaves, extractedLeaves (newFromMap org) focus = .ok orgLeaves ∧
        extractedLeaves (newFromMap req) focus = .ok reqLeaves ∧
        ∀ path, GoMap.lastAt orgLeaves path = GoMap.lastAt reqLeaves path := by
  have horgNode := newFromYamlBytes_of_yamlUnmarshal horg
  have hreqNode := newFromBytes_of_jsonUnmarshal hreq
  have hlen : 0 < focus.length := List.length_pos_iff.2 hne
  simp only [matchContents, horgNode, hreqNode, if_pos hlen, bind, Except.bind, pure, Except.pure]
  rcases extract_eq hplain (newFromMap org) with ⟨fault, hleaves, hextract⟩ | ⟨o, hextract, hleaves⟩
  · simp only [hextract, hleaves]
    constructor
    · rintro ⟨_, _, h⟩
      cases h
    · rintro ⟨_, _, h, _⟩
      cases h
  rcases extract_eq hplain (newFromMap req) with
    ⟨fault, hleaves', hextract'⟩ | ⟨r, hextract', hleaves'⟩
  · simp only [hextract, hextract', hleaves']
    constructor
    · rintro ⟨_, _, h⟩
      cases h
    · rintro ⟨_, _, _, h, _⟩
      cases h
  simp only [hextract, hextract', hleaves, hleaves']
  have hdiff := diff_eq_none_iff o r
  cases hd : o.diff r with
  | none => exact ⟨fun _ => ⟨_, _, rfl, rfl, hdiff.1 hd⟩, fun _ => ⟨_, _, rfl⟩⟩
  | some dr =>
      constructor
      · rintro ⟨_, _, h⟩
        cases h
      · rintro ⟨_, _, ho, hr, hsame⟩
        cases ho
        cases hr
        rw [hdiff.2 hsame] at hd
        cases hd

/-- Two trees have the same leaves at and below every focus key. -/
def SameAt (focus : List String) (t₁ t₂ : Node) : Prop :=
  ∀ key ∈ focus, ∀ path v, path = key ∨ Strings.hasPrefix path (key ++ ".") = true →
    ((path, v) ∈ t₁.leaves ↔ (path, v) ∈ t₂.leaves)

end Check

/-- Libraries that read a signed document off the text `signed` and a request
object off `request`. -/
@[reducible] def Outside.reading (signed request : JsonMap) : Outside :=
  { Outside.silent with
    yamlUnmarshal := fun raw => if raw = "signed" then .ok signed else .error "invalid"
    jsonUnmarshal := fun raw => if raw = "request" then .ok request else .error "invalid" }

/-- A config map with one entry. -/
def dataJson (value : String) : JsonMap := [("data", .obj [("a", .scalar (.str value))])]

/-- A result that is known up to what is left of the mask. -/
theorem exists_of_toOption_fst {α β : Type} {x : Go (α × β)} {a : α}
    (h : x.toOption.map Prod.fst = some a) : ∃ b, x = .ok (a, b) := by
  obtain ⟨r, hr, rfl⟩ := Go.exists_of_toOption_map h
  exact ⟨r.2, hr⟩

end Shield
end IntegrityShield
