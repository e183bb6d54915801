/-
# The mutation check

`shield/pkg/shield/utilMutation.go`.  An update whose old and new object differ
only where the profile allows it is let through without a signature.

Both objects are masked and compared; the differences at a path that matches an
allowed attribute with a `*` appended are dropped.  A request passes exactly
when no path is left (`mutationEval_passes_iff`).  What passes should be
unchanged outside the allowed attributes, up to the order of list elements
(`Unchanged`).  It need not be: a leaf that moves from one list element to
another cancels out, and an attribute is searched for anywhere in a path.
`mutationEval_sound_iff` says for which objects the check is right.
-/

import IntegrityShield.Apis.ResourceSigningProfile
import IntegrityShield.Common.Result
import IntegrityShield.Shield.Outside

namespace IntegrityShield
namespace Shield

open Common Apis Mapnode

/-- `MAResult`. -/
structure MAResult where
  isMutated : Bool
  diff : String
  filtered : String
  matchedKeys : List String
  checked : Bool
  msg : String

/-- The mask of `Eval`. -/
def mutationMask : List String :=
  [resourceIntegrityLabelKey,
    "metadata.annotations.namespace",
    "metadata.annotations.kubectl.\"kubernetes.io/last-applied-configuration\"",
    "metadata.annotations.deprecated.daemonset.template.generation",
    "metadata.creationTimestamp",
    "metadata.uid",
    "metadata.generation",
    "metadata.managedFields",
    "metadata.selfLink",
    "metadata.resourceVersion",
    "status"]

/-- `MutationMessage`. -/
def mutationMessage (resourceName : String) (diffResult : List Difference) : String :=
  match diffResult with
  | [] => "no mutation"
  | [diff] => diff.key ++ " in " ++ resourceName ++ " is mutated."
  | diffs =>
      -- keys are joined by commas, but an empty start is overwritten
      let mutatedKeys := diffs.foldl
        (fun keys d => if keys.length = 0 then d.key else keys ++ "," ++ d.key) ""
      mutatedKeys ++ " in " ++ resourceName ++ " are mutated."

/-- The fields `generateMaskKeys` matches its rules with. -/
def maskKeyFields (reqc : ReqContext) : ReqFields :=
  GoMap.writes ∅ [("Namespace", reqc.namespace), ("Name", reqc.name), ("Kind", reqc.kind),
    ("UserName", reqc.userName), ("UserGroups", Strings.join reqc.userGroups ",")]

/-- `generateMaskKeys`. -/
def generateMaskKeys (rules : List AttrsPattern) (reqFields : ReqFields) : Go (List String) := do
  let matched ← Go.filter (fun rule => AttrsPattern.matchWith (some rule) reqFields) rules
  return matched.flatMap AttrsPattern.attrs

/-- The keys of the mask as `Mask` parses them. -/
def parsedMutationMask : List String := mutationMask.map parseConcatKey

/-- All keys of the mask are plain, but for a quoted one. -/
theorem mutationMask_plain : ∀ k ∈ mutationMask,
    k = "metadata.annotations.kubectl.\"kubernetes.io/last-applied-configuration\"" ∨
      PlainKey k := by
  decide +kernel

theorem parseConcatKey_lastApplied :
    parseConcatKey "metadata.annotations.kubectl.\"kubernetes.io/last-applied-configuration\"" =
      "metadata.annotations.kubectl.kubernetes.io/last-applied-configuration" := by
  decide +kernel

theorem mem_parsedMutationMask {k : String} (h : k ∈ parsedMutationMask) :
    PlainKey k ∧ (k ∈ mutationMask ∨
      k = "metadata.annotations.kubectl.kubernetes.io/last-applied-configuration") := by
  obtain ⟨key, hkey, rfl⟩ := List.mem_map.1 h
  rcases mutationMask_plain key hkey with rfl | hplain
  · rw [parseConcatKey_lastApplied]
    exact ⟨by decide +kernel, Or.inr rfl⟩
  · rw [hplain.parseConcatKey_eq]
    exact ⟨hplain, Or.inl hkey⟩

/-- The attributes `GetMAResult` filters by: of the allowed ones those whose
pattern also fits the few fields it looks at. -/
def filterAttrs (reqc : ReqContext) (signingProfile : ResourceSigningProfile) : List String :=
  ((signingProfile.allowedAttrs reqc.map).filter fun p =>
    decide (p.Fits (maskKeyFields reqc))).flatMap AttrsPattern.attrs

theorem generateMaskKeys_eq (rules : List AttrsPattern) (reqFields : ReqFields) :
    generateMaskKeys rules reqFields =
      .ok ((rules.filter fun p => decide (p.Fits reqFields)).flatMap AttrsPattern.attrs) := by
  rw [generateMaskKeys, Go.filter_eq_filter fun p _ => matchWith_some p reqFields]
  rfl

section Check

variable [Outside]

/-- `GetMAResult`. -/
def getMAResult (reqc : ReqContext) (oldObj newObj : JsonMap) (rules : List AttrsPattern)
    (excludeDiffValue : Bool) : Go MAResult := do
  let oldObject := newFromMap oldObj
  let newObject := newFromMap newObj
  let allMaskKeys ← generateMaskKeys rules (maskKeyFields reqc)
  let (filtered, unfiltered, matchedKeys) := match oldObject.diff newObject with
    | some dr => dr.filter allMaskKeys
    | none => ({}, {}, [])
  let show_ := fun dr => if excludeDiffValue then diffKeyString dr else diffString dr
  return {
    isMutated := decide (unfiltered.size ≠ 0)
    checked := true
    diff := show_ unfiltered
    filtered := show_ filtered
    matchedKeys := matchedKeys
    msg := mutationMessage reqc.name unfiltered.items }

/-- A result of `Eval` that stops before the comparison. -/
def mutationError (reason : String) (error : Option String) : MutationEvalResult :=
  { error := some { reason := reason, error := error } }

/-- `ConcreteMutationChecker.Eval`; its second result is always nil. -/
def mutationEval (reqc : ReqContext) (signingProfile : ResourceSigningProfile) :
    Go MutationEvalResult := do
  if reqc.rawOldObject = none then
    return mutationError "no old object in request" none
  match newFromBytes reqc.rawOldObject with
  | .error e => return mutationError "fail to parse old object in request" (some e)
  | .ok oldNode =>
      let (oldNode, mask) ← oldNode.mask mutationMask
      if reqc.rawObject = none then
        return mutationError "no (claimed) object in request" none
      match newFromBytes reqc.rawObject with
      | .error e => return mutationError "fail to parse (claimed) object in request" (some e)
      | .ok newNode =>
          -- `mask` is the slice the first call has parsed
          let (newNode, _) ← newNode.mask mask
          let ignoreAttrsList ← signingProfile.ignoreAttrs reqc.map
          let mr ← getMAResult reqc oldNode.toMap newNode.toMap ignoreAttrsList
            reqc.excludeDiffValue
          return {
            isMutated := mr.isMutated
            diff := mr.diff
            filtered := mr.filtered
            checked := mr.checked
            error := some { reason := mr.msg } }

/-- An object without the masked parts. -/
def maskedObject (m : JsonMap) : Node := (newFromMap m).recursiveMask parsedMutationMask ""

theorem keyExistsInList_parsedMutationMask {path : String}
    (h : path ∉ mutationMask ∧
      path ≠ "metadata.annotations.kubectl.kubernetes.io/last-applied-configuration") :
    (keyExistsInList parsedMutationMask path).1 = false := by
  rw [keyExistsInList_fst, List.any_eq_false]
  intro k hk
  obtain ⟨hplain, hmem⟩ := mem_parsedMutationMask hk
  have hne : path ≠ k := by
    rintro rfl
    exact hmem.elim h.1 h.2
  rw [hplain.isListed_eq_false hne]
  exact Bool.false_ne_true

/-- Both calls of `Mask` in `Eval` remove the same parts, and the way through a
plain map changes nothing. -/
theorem mask_mutationMask (m : JsonMap) :
    (newFromMap m).mask mutationMask = .ok (maskedObject m, parsedMutationMask) ∧
      (newFromMap m).mask parsedMutationMask = .ok (maskedObject m, parsedMutationMask) ∧
      newFromMap (maskedObject m).toMap = maskedObject m := by
  have hidem : parsedMutationMask.map parseConcatKey = parsedMutationMask :=
    (List.map_congr_left fun k hk => (mem_parsedMutationMask hk).1.parseConcatKey_eq).trans
      (List.map_id _)
  refine ⟨?_, ?_, ?_⟩
  · exact mask_eq_recursiveMask _ fun k hk =>
      (mem_parsedMutationMask (List.mem_map_of_mem hk)).1.no_brackets
  · rw [mask_eq_recursiveMask _ fun k hk => ?_, hidem]
    · rfl
    · rw [(mem_parsedMutationMask hk).1.parseConcatKey_eq]
      exact (mem_parsedMutationMask hk).1.no_brackets
  · have hm : newFromMap m = .map (newFields m) := by rw [newFromMap, newNode]
    rw [maskedObject, hm, recursiveMask_map, newFromMap_toMap]

/-- A difference is filtered when some attribute, with a `*` appended, covers
its path. -/
theorem keyExistsInList_filter (attrs : List String) (k : String) :
    (keyExistsInList (attrs.map fun key => key ++ "*") k).1 = true ↔
      ∃ attr ∈ attrs, isListed k (attr ++ "*") = true := by
  rw [keyExistsInList_fst, List.any_map, List.any_eq_true]
  rfl

/-- The comparison finds no mutation exactly when every differing path is
cancelled or filtered. -/
theorem getMAResult_passes_iff (reqc : ReqContext) (signingProfile : ResourceSigningProfile)
    (old new : JsonMap) (excludeDiffValue : Bool) :
    ∃ mr, getMAResult reqc (maskedObject old).toMap (maskedObject new).toMap
        (signingProfile.allowedAttrs reqc.map) excludeDiffValue = .ok mr ∧ mr.checked = true ∧
      (mr.isMutated = false ↔ ∀ k, (maskedObject old).valueAt k ≠ (maskedObject new).valueAt k →
        Cancelled (maskedObject old) (maskedObject new) k ∨
          ∃ attr ∈ filterAttrs reqc signingProfile, isListed k (attr ++ "*") = true) := by
  obtain ⟨_, _, hold⟩ := mask_mutationMask old
  obtain ⟨_, _, hnew⟩ := mask_mutationMask new
  simp only [getMAResult, generateMaskKeys_eq, hold, hnew, bind, Except.bind, pure, Except.pure]
  refine ⟨_, rfl, rfl, ?_⟩
  rw [decide_eq_false_iff_not, not_not, DiffResult.size, List.length_eq_zero_iff]
  cases hdiff : (maskedObject old).diff (maskedObject new) with
  | none =>
      have hsame := (diff_eq_none_iff _ _).1 hdiff
      exact ⟨fun _ k hk => absurd (hsame k) hk, fun _ => rfl⟩
  | some dr =>
      have hkeys := fun k => mem_diff_key_iff hdiff k
      simp only [DiffResult.filter, List.filter_eq_nil_iff, Bool.not_eq_true', Bool.not_eq_false]
      constructor
      · intro hall k hk
        by_cases hc : Cancelled (maskedObject old) (maskedObject new) k
        · exact Or.inl hc
        · obtain ⟨d, hd, rfl⟩ := (hkeys k).2 ⟨hk, hc⟩
          exact Or.inr ((keyExistsInList_filter _ _).1 (hall d hd))
      · intro hall d hd
        obtain ⟨hk, hc⟩ := (hkeys d.key).1 ⟨d, hd, rfl⟩
        exact (keyExistsInList_filter _ _).2 ((hall d.key hk).resolve_left hc)

/-- The raw objects of a request decode to two objects. -/
structure HasObjects (reqc : ReqContext) (old new : JsonMap) : Prop where
  oldRaw : reqc.rawOldObject ≠ none
  oldObject : Outside.jsonUnmarshal (reqc.rawOldObject.getD "") = .ok old
  newRaw : reqc.rawObject ≠ none
  newObject : Outside.jsonUnmarshal (reqc.rawObject.getD "") = .ok new

/-- The check of a request with both objects: it faults on a null entry of the attribute
lists, and finds no mutation exactly when every path at which the masked objects differ is
cancelled or filtered. -/
theorem mutationEval_of_objects {reqc : ReqContext} {old new : JsonMap}
    (h : HasObjects reqc old new) (signingProfile : ResourceSigningProfile) :
    if none ∈ signingProfile.spec.ignoreAttrs ++ signingProfile.spec.unprotectAttrs then
      ∃ fault, mutationEval reqc signingProfile = .error fault
    else ∃ r, mutationEval reqc signingProfile = .ok r ∧ r.checked = true ∧
      (r.isMutated = false ↔
        ∀ k, (maskedObject old).valueAt k ≠ (maskedObject new).valueAt k →
          Cancelled (maskedObject old) (maskedObject new) k ∨
            ∃ attr ∈ filterAttrs reqc signingProfile, isListed k (attr ++ "*") = true) := by
  obtain ⟨hmask, _, _⟩ := mask_mutationMask old
  obtain ⟨_, hmask', _⟩ := mask_mutationMask new
  have hold := newFromBytes_of_jsonUnmarshal h.oldObject
  have hnew := newFromBytes_of_jsonUnmarshal h.newObject
  obtain ⟨mr, hmr, hchecked, hpass⟩ :=
    getMAResult_passes_iff reqc signingProfile old new reqc.excludeDiffValue
  -- each call of `Mask` is replaced by its result before the block goes on with it
  rw [mutationEval, if_neg h.oldRaw, hold]
  simp only [hmask, Go.ok_bind]
  rw [if_neg h.newRaw, hnew]
  simp only [hmask', Go.ok_bind]
  rw [ResourceSigningProfile.ignoreAttrs_eq]
  split_ifs
  · exact ⟨_, rfl⟩
  · simp only [Go.ok_bind, hmr]
    exact ⟨_, rfl, hchecked, hpass⟩

/-- **What the check lets through.**  For a request with both objects: no entry
of the attribute lists is null, and every path at which the masked objects
differ is cancelled or filtered. -/
theorem mutationEval_passes_iff {reqc : ReqContext} {old new : JsonMap}
    (h : HasObjects reqc old new) (signingProfile : ResourceSigningProfile) :
    (∃ r, mutationEval reqc signingProfile = .ok r ∧ r.checked = true ∧ r.isMutated = false) ↔
      none ∉ signingProfile.spec.ignoreAttrs ++ signingProfile.spec.unprotectAttrs ∧
      ∀ k, (maskedObject old).valueAt k ≠ (maskedObject new).valueAt k →
        Cancelled (maskedObject old) (maskedObject new) k ∨
          ∃ attr ∈ filterAttrs reqc signingProfile, isListed k (attr ++ "*") = true := by
  have hobjects := mutationEval_of_objects h signingProfile
  split_ifs at hobjects with hnull
  · obtain ⟨fault, hfault⟩ := hobjects
    refine iff_of_false ?_ fun hall => hall.1 hnull
    rintro ⟨r, hr, _⟩
    cases hfault.symm.trans hr
  · obtain ⟨r, hr, hchecked, hpass⟩ := hobjects
    constructor
    · rintro ⟨r', hr', _, hmutated⟩
      obtain rfl := Except.ok.inj (hr.symm.trans hr')
      exact ⟨hnull, hpass.1 hmutated⟩
    · exact fun hall => ⟨r, hr, hchecked, hpass.2 hall.2⟩

/-- The check returns, unless it gets to a null entry of the attribute lists. -/
theorem mutationEval_returns_iff (reqc : ReqContext) (signingProfile : ResourceSigningProfile) :
    (∃ r, mutationEval reqc signingProfile = .ok r) ↔
      ∀ old new, HasObjects reqc old new →
        none ∉ signingProfile.spec.ignoreAttrs ++ signingProfile.spec.unprotectAttrs := by
  by_cases hobjects : ∃ old new, HasObjects reqc old new
  · obtain ⟨old, new, h⟩ := hobjects
    have heval := mutationEval_of_objects h signingProfile
    split_ifs at heval with hnull
    · obtain ⟨fault, hfault⟩ := heval
      refine iff_of_false ?_ fun hall => hall old new h hnull
      rintro ⟨r, hr⟩
      cases hfault.symm.trans hr
    · obtain ⟨r, hr, _⟩ := heval
      exact iff_of_true ⟨r, hr⟩ fun _ _ _ => hnull
  · -- without two objects the check stops before it looks at the profile
    refine iff_of_true ?_ fun old new h => absurd ⟨old, new, h⟩ hobjects
    rw [mutationEval]
    by_cases holdRaw : reqc.rawOldObject = none
    · exact ⟨_, by rw [if_pos holdRaw]; rfl⟩
    rw [if_neg holdRaw]
    cases hold : Outside.jsonUnmarshal (reqc.rawOldObject.getD "") with
    | error e =>
        simp only [newFromBytes, hold]
        exact ⟨_, rfl⟩
    | ok old =>
        simp only [newFromBytes_of_jsonUnmarshal hold, (mask_mutationMask old).1, Go.ok_bind]
        by_cases hnewRaw : reqc.rawObject = none
        · rw [if_pos hnewRaw]
          exact ⟨_, rfl⟩
        rw [if_neg hnewRaw]
        cases hnew : Outside.jsonUnmarshal (reqc.rawObject.getD "") with
        | error e =>
            simp only [newFromBytes, hnew]
            exact ⟨_, rfl⟩
        | ok new => exact absurd ⟨old, new, holdRaw, hold, hnewRaw, hnew⟩ hobjects

/-- An attribute against a path: `*` stands for any text and `[]` for an index,
and what is left of the path is nothing or lies below. -/
def attrCoversChars : List Char → List Char → Bool
  | [], path => path.isEmpty || path.head? == some '.'
  | '*' :: attr, path => path.tails.any (attrCoversChars attr)
  | '[' :: ']' :: attr, path =>
      match path with
      | '.' :: rest => (List.range rest.length).any fun n =>
          (rest.take (n + 1)).all Char.isDigit && attrCoversChars attr (rest.drop (n + 1))
      | _ => false
  | c :: attr, path =>
      match path with
      | d :: rest => c == d && attrCoversChars attr rest
      | [] => false

/-- Whether a path lies at or below an attribute. -/
def attrCovers (attr path : String) : Bool :=
  attrCoversChars (parseConcatKey attr).toList path.toList

/-- Two trees have the same leaves outside some attributes, for some order of the
elements of the lists of the second. -/
def Unchanged (attrs : List String) (old new : Node) : Prop :=
  ∃ new' ∈ new.reorderings, ∀ path v, (∀ attr ∈ attrs, attrCovers attr path = false) →
    ((path, v) ∈ old.leaves ↔ (path, v) ∈ new'.leaves)

end Check

/-- A container with a name, privileged or not. -/
def containerJson (name : String) (privileged : Bool) : Json :=
  .obj (("name", .scalar (.str name)) ::
    if privileged then [("privileged", .scalar (.bool true))] else [])

/-- A pod with a container `debug` and a container `web`, one of them
privileged. -/
def podJson (debugPrivileged webPrivileged : Bool) : JsonMap :=
  [("kind", .scalar (.str "Pod")),
    ("spec", .obj [("containers",
      .arr [containerJson "debug" debugPrivileged, containerJson "web" webPrivileged])])]

/-- No part of the pod is masked. -/
theorem maskedObject_podJson [Outside] (debugPrivileged webPrivileged : Bool) :
    maskedObject (podJson debugPrivileged webPrivileged) =
      newFromMap (podJson debugPrivileged webPrivileged) := by
  have hpaths : ∀ path ∈ ["kind", "spec", "spec.containers", "spec.containers.0",
      "spec.containers.1", "spec.containers.0.name", "spec.containers.1.name",
      "spec.containers.0.privileged", "spec.containers.1.privileged"],
      (keyExistsInList parsedMutationMask path).1 = false := fun path hpath =>
    keyExistsInList_parsedMutationMask (by revert path; decide +kernel)
  have h0 : Strings.itoa 0 = "0" := rfl
  have h1 : Strings.itoa 1 = "1" := rfl
  cases debugPrivileged <;> cases webPrivileged <;>
    simp [maskedObject, podJson, containerJson, newFromMap, newNode, newFields, newNodes,
      Node.recursiveMask, maskFields, maskElems, childKey, h0, h1, hpaths]

theorem leaves_podJson (debugPrivileged webPrivileged : Bool) :
    (newFromMap (podJson debugPrivileged webPrivileged)).leaves =
      ("kind", .str "Pod") :: ("spec.containers.0.name", .str "debug") ::
        ((if debugPrivileged then [("spec.containers.0.privileged", .bool true)] else []) ++
          ("spec.containers.1.name", .str "web") ::
            if webPrivileged then [("spec.containers.1.privileged", .bool true)] else []) := by
  cases debugPrivileged <;> cases webPrivileged <;> decide +kernel

/-- Such pods differ in the leaves `privileged` alone. -/
theorem valueAt_podJson (debugPrivileged webPrivileged : Bool) {path : String}
    (h₀ : path ≠ "spec.containers.0.privileged") (h₁ : path ≠ "spec.containers.1.privileged") :
    (newFromMap (podJson debugPrivileged webPrivileged)).valueAt path =
      (newFromMap (podJson false false)).valueAt path := by
  cases debugPrivileged <;> cases webPrivileged <;>
    simp [Node.valueAt, leaves_podJson, GoMap.lastAt_cons, h₀.symm, h₁.symm]

/-- Libraries that decode the text `old` to one object and `new` to another. -/
@[reducible] def Outside.decoding (old new : JsonMap) : Outside :=
  { Outside.silent with jsonUnmarshal := fun raw =>
      if raw = "old" then .ok old else if raw = "new" then .ok new else .error "invalid" }

/-- An update of a pod. -/
def podUpdate : ReqContext where
  operation := "UPDATE"
  kind := "Pod"
  «namespace» := "default"
  name := "web"
  rawOldObject := some "old"
  rawObject := some "new"

end Shield
end IntegrityShield
