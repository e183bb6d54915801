/-
# An object that the shield has patched

The shield writes a label and annotations into the objects it admits
(`shield/pkg/shield/utilPatch.go`), and meets them again: a verified object is applied once
more, or updated.  Both checks mask what the shield itself wrote, each with a list of its
own.

The mask of the signature check (`CommonMessageMask` of `signVerifier.go`) covers all of it,
so a patched object matches a signed message exactly when the object before the patch does
(`matchContents_patched`).  The mask of the mutation check (`utilMutation.go`) has the key
of the label without `metadata.labels`, where no object has it, and none of the annotations:
`mutationEval_patched_iff` says when the patch is no mutation all the same.
-/

import IntegrityShield.Mapnode.Removal
import IntegrityShield.Shield.Patch

namespace IntegrityShield
namespace Shield

open Common Apis Mapnode

/-- An object with a metadata map whose labels and annotations, if it has them, are maps of
strings or null. -/
def HasStringMaps (r : JsonMap) : Prop :=
  ∃ metadata labels annotations, r.lookup "metadata" = some (.obj metadata) ∧
    HoldsLabels (metadata.lookup "labels") labels ∧
    HoldsLabels (metadata.lookup "annotations") annotations

/-- The dotted paths that a patch writes. -/
def PatchRequest.paths (request : PatchRequest) : List String :=
  request.labels.keys.map (childKey "metadata.labels") ++
    request.annotations.keys.map (childKey "metadata.annotations")

/-- The dotted paths that any patch of the shield may write. -/
def shieldPaths : List String :=
  childKey "metadata.labels" resourceIntegrityLabelKey ::
    [lastVerifiedTimestampAnnotationKey, signedByAnnotationKey,
      resourceSignatureUIDAnnotationKey].map (childKey "metadata.annotations")

/-- The annotations of a verified request. -/
theorem mem_verifyAnnotations_iff (ctx : CheckContext) (now key : String) :
    key ∈ verifyAnnotations ctx now ↔ verifyResultLabel ctx = labelValueVerified ∧
      (key = lastVerifiedTimestampAnnotationKey ∨
        (key = signedByAnnotationKey ∧ ctx.signatureEvalResult.signerName ≠ "") ∨
        (key = resourceSignatureUIDAnnotationKey ∧
          ctx.signatureEvalResult.resourceSignatureUID ≠ "")) := by
  rw [verifyAnnotations]
  by_cases hverified : verifyResultLabel ctx = labelValueVerified
  · rw [if_pos hverified, GoMap.mem_writes, and_iff_right hverified]
    by_cases hsigner : ctx.signatureEvalResult.signerName = "" <;>
      by_cases huid : ctx.signatureEvalResult.resourceSignatureUID = "" <;>
      simp [hsigner, huid]
  · rw [if_neg hverified]
    exact iff_of_false (AList.notMem_empty key) fun h => hverified h.1

/-- The keys that a patch of the shield writes, and those it would delete. -/
theorem keys_of_generatePatchBytes {reqc : ReqContext} {ctx : CheckContext} {now : String}
    {request : PatchRequest} (h : generatePatchBytes reqc ctx now = some request) :
    (∀ key ∈ request.labels, key = resourceIntegrityLabelKey) ∧
      (∀ key ∈ request.annotations, key ∈ [lastVerifiedTimestampAnnotationKey,
        signedByAnnotationKey, resourceSignatureUIDAnnotationKey]) ∧
      request.deleteKeys = [resourceIntegrityLabelKey, lastVerifiedTimestampAnnotationKey,
        signedByAnnotationKey, resourceSignatureUIDAnnotationKey] := by
  rw [generatePatchBytes] at h
  split_ifs at h
  obtain rfl := Option.some.inj h
  refine ⟨fun key hkey => ?_, fun key hkey => ?_, rfl⟩
  · exact List.mem_singleton.1 (GoMap.mem_writes.1 hkey)
  · obtain ⟨_, rfl | ⟨rfl, _⟩ | ⟨rfl, _⟩⟩ := (mem_verifyAnnotations_iff ctx now key).1 hkey <;> simp

/-- All these keys have dots. -/
theorem dots_of_generatePatchBytes {reqc : ReqContext} {ctx : CheckContext} {now : String}
    {request : PatchRequest} (h : generatePatchBytes reqc ctx now = some request) :
    (∀ key ∈ request.labels, '.' ∈ key.toList) ∧ (∀ key ∈ request.annotations, '.' ∈ key.toList) ∧
      ∀ key ∈ request.deleteKeys, '.' ∈ key.toList := by
  obtain ⟨hlabels, hannotations, hdelete⟩ := keys_of_generatePatchBytes h
  refine ⟨fun key hkey => hlabels key hkey ▸ by decide, fun key hkey => ?_, ?_⟩
  · exact (by decide : ∀ key ∈ [lastVerifiedTimestampAnnotationKey, signedByAnnotationKey,
      resourceSignatureUIDAnnotationKey], '.' ∈ key.toList) key (hannotations key hkey)
  · rw [hdelete]
    decide

/-- The patch of an object, and the paths it writes. -/
structure Patched (request : PatchRequest) (r r' : JsonMap) : Prop where
  apply_eq : request.apply r = some (.obj r')
  paths : ∀ path ∈ request.paths, path ∈ shieldPaths
  samePlaces : (newFromMap r).SamePlaces (newFromMap r')
  lastAt_eq : ∀ (dropped : String → Bool) (k : String),
    (∀ path ∈ request.paths, dropped path = false → k ≠ path) →
      GoMap.lastAt ((newFromMap r').keptLeavesFrom dropped "" "") k =
        GoMap.lastAt ((newFromMap r).keptLeavesFrom dropped "" "") k

section WriteMap

variable {field : String} {values : Labels} {fields : JsonMap} {entries : List (String × String)}
  (h : HoldsLabels (fields.lookup field) entries) (hdots : ∀ key ∈ values, '.' ∈ key.toList)

theorem holdsStrings_labelsJson (m : Labels) :
    (newNode (labelsJson m)).HoldsStrings (m.entries.map fun e => (e.1, e.2)) := by
  rw [labelsJson, newNode]
  exact .map _

include h

theorem HoldsLabels.holdsStrings_lookup :
    (((newFields fields).lookup field).getD .null).HoldsStrings entries := by
  rw [lookup_newFields]
  exact h.holdsStrings

include hdots

/-- Writing labels changes the values at their own paths only. -/
theorem lastAt_writeMap (dropped : String → Bool) (path : String) {k : String}
    (hk : ∀ key ∈ values, dropped (childKey (childKey path field) key) = false →
      k ≠ childKey (childKey path field) key) :
    GoMap.lastAt (keptFieldLeaves dropped path path (newFields (writeMap field values fields))) k =
      GoMap.lastAt (keptFieldLeaves dropped path path (newFields fields)) k := by
  rw [writeMap]
  split_ifs
  · rw [newFields_setField]
    refine lastAt_keptFieldLeaves_setField dropped path path fun _ => ?_
    refine (holdsStrings_labelsJson _).lastAt_congr dropped _ _ h.holdsStrings_lookup ?_
    intro name hname hkept
    have hnot : name ∉ values := fun hmem => hk name hmem hkept hname
    rw [GoMap.lastAt_entries, lookup_overlaid h hdots, AList.lookup_eq_none.2 hnot, Option.none_or]
  · rfl

/-- Labels whose keys have dots are at no place that an expansion asks for. -/
theorem samePlaces_writeMap (hfield : ∀ x, Strings.itoa x ≠ field) :
    (Node.map (newFields fields)).SamePlaces (.map (newFields (writeMap field values fields))) := by
  rw [writeMap]
  split_ifs
  · rw [newFields_setField]
    refine samePlaces_setField hfield ?_
    refine h.holdsStrings_lookup.samePlaces (holdsStrings_labelsJson _) fun name hdot => ?_
    have hnot : name ∉ values := fun hmem => hdot (hdots name hmem)
    rw [GoMap.lastAt_entries, lookup_overlaid h hdots, AList.lookup_eq_none.2 hnot, Option.none_or]
  · exact fun _ _ _ => rfl

end WriteMap

/-- A name with a letter in it is no index. -/
theorem itoa_ne {name : String} {c : Char} (hc : c.isDigit = false) (hmem : c ∈ name.toList)
    (x : ℕ) : Strings.itoa x ≠ name := by
  rintro rfl
  exact not_mem_itoa hc x hmem

/-- **The object after the patch**: the patch applies, the object has the same places to
expand a key at, and the same values but at the written paths. -/
theorem exists_patched {reqc : ReqContext} {ctx : CheckContext} {now : String}
    {request : PatchRequest} (hpatch : generatePatchBytes reqc ctx now = some request)
    {r : JsonMap} (hobject : HasStringMaps r) : ∃ r', Patched request r r' := by
  obtain ⟨metadata, labels, annotations, hmetadata, hlabels, hannotations⟩ := hobject
  obtain ⟨hlabelKeys, hannotationKeys, _⟩ := keys_of_generatePatchBytes hpatch
  obtain ⟨hlabelDots, hannotationDots, hdeleteDots⟩ := dots_of_generatePatchBytes hpatch
  have hannotations' : HoldsLabels ((writeMap "labels" request.labels metadata).lookup
      "annotations") annotations := by
    rw [lookup_writeMap_of_ne (by decide)]
    exact hannotations
  have hnode : ((newFields r).lookup "metadata").getD .null = .map (newFields metadata) := by
    rw [lookup_newFields, hmetadata, Option.map_some, Option.getD_some, newNode]
  refine ⟨_, applyPatch_createJSONPatchBytes hmetadata hlabels hannotations ?_ hdeleteDots
    request.name, ?_, ?_, ?_⟩
  · rintro key (hkey | hkey)
    · exact hlabelDots key hkey
    · exact hannotationDots key hkey
  · intro path hpath
    rcases List.mem_append.1 hpath with hpath | hpath
    · obtain ⟨key, hkey, rfl⟩ := List.mem_map.1 hpath
      rw [hlabelKeys key hkey]
      exact List.mem_cons_self
    · obtain ⟨key, hkey, rfl⟩ := List.mem_map.1 hpath
      exact List.mem_cons_of_mem _ (List.mem_map_of_mem (hannotationKeys key hkey))
  · rw [newFromMap, newFromMap, newNode, newNode, newFields_setField]
    refine samePlaces_setField (itoa_ne (c := 'm') (by decide) (by decide)) ?_
    rw [hnode, newNode]
    have hfirst := samePlaces_writeMap hlabels hlabelDots
      (itoa_ne (c := 'l') (by decide) (by decide))
    have hsecond := samePlaces_writeMap hannotations' hannotationDots
      (itoa_ne (c := 'a') (by decide) (by decide))
    exact fun names x hnames => (hfirst names x hnames).trans (hsecond names x hnames)
  · intro dropped k hk
    rw [newFromMap, newFromMap, newNode, newNode, newFields_setField, Node.keptLeavesFrom,
      Node.keptLeavesFrom]
    refine lastAt_keptFieldLeaves_setField dropped "" "" fun _ => ?_
    rw [hnode, newNode, Node.keptLeavesFrom, Node.keptLeavesFrom]
    refine (lastAt_writeMap hannotations' hannotationDots dropped _ fun key hkey => ?_).trans
      (lastAt_writeMap hlabels hlabelDots dropped _ fun key hkey => ?_)
    · exact hk _ (List.mem_append_right _ (List.mem_map_of_mem hkey))
    · exact hk _ (List.mem_append_left _ (List.mem_map_of_mem hkey))

/-- A mask whose parsed keys have no quotes is expanded in finitely many rounds. -/
theorem validateKeyList_of_no_quote (t : Node) {keys : List String}
    (h : ∀ k ∈ keys, '"' ∉ (parseConcatKey k).toList) :
    ∃ validKeys, t.validateKeyList keys = .ok (validKeys, keys.map parseConcatKey) ∧
      ∀ text, text ∈ validKeys ↔ ∃ k ∈ keys, t.Spells (parseConcatKey k) text :=
  validateKeyList_ok fun k hk _ => countable_of_no_quote (h k hk) t _

/-- A name that may stand in quotes at the end of a key of the mask. -/
def QuotableName (name : String) : Prop := ∀ c ∈ name.toList, c ≠ '"' ∧ c ≠ ']' ∧ c ≠ '\r'

instance (name : String) : Decidable (QuotableName name) := List.decidableBAll _ name.toList

theorem parseConcatKey_label {name : String} (h : QuotableName name) :
    parseConcatKey ("metadata.labels.\"" ++ name ++ "\"") = childKey "metadata.labels" name := by
  have hkey : "metadata.labels.\"" = "metadata.labels" ++ ".\"" := by decide
  have hquotable : QuotableName "metadata.labels" := by decide
  rw [hkey, parseConcatKey_quoted hquotable (by decide) h, childKey, if_neg (by decide)]

theorem parseConcatKey_annotationPath {name : String} (h : QuotableName name) :
    parseConcatKey ("metadata.annotations.\"" ++ name ++ "\"") =
      childKey "metadata.annotations" name := by
  have hkey : "metadata.annotations.\"" = "metadata.annotations" ++ ".\"" := by decide
  have hquotable : QuotableName "metadata.annotations" := by decide
  rw [hkey, parseConcatKey_quoted hquotable (by decide) h, childKey, if_neg (by decide)]

/-- The annotations of the shield in the common mask. -/
def maskedAnnotations : List String :=
  [signedByAnnotationKey, lastVerifiedTimestampAnnotationKey, resourceSignatureUIDAnnotationKey,
    signatureAnnotationKey, messageAnnotationKey, certificateAnnotationKey,
    signatureTypeAnnotationKey, messageScopeAnnotationKey, mutableAttrsAnnotationKey]

theorem quotableName_annotations : ∀ name ∈ maskedAnnotations, QuotableName name := by
  decide +kernel

theorem quotableName_label : QuotableName resourceIntegrityLabelKey := by
  decide +kernel

theorem commonMessageMask_no_quote {k : String} (hk : k ∈ commonMessageMask) :
    '"' ∉ (parseConcatKey k).toList := by
  have hchild : ∀ {path name : String}, '"' ∉ path.toList → QuotableName name →
      '"' ∉ (childKey path name).toList := by
    intro path name hpath hname hc
    rw [childKey] at hc
    split_ifs at hc
    · exact (hname _ hc).1 rfl
    · simp only [String.toList_append, List.mem_append] at hc
      rcases hc with (hc | hc) | hc
      · exact hpath hc
      · exact absurd hc (by decide)
      · exact (hname _ hc).1 rfl
  rcases List.mem_append.1 hk with hk | hk
  · rcases List.mem_append.1 hk with hk | hk
    · rw [List.mem_singleton.1 hk, parseConcatKey_label quotableName_label]
      exact hchild (by decide) quotableName_label
    · obtain ⟨name, hname, rfl⟩ := List.mem_map.1 hk
      have hquotable := quotableName_annotations name hname
      rw [parseConcatKey_annotationPath hquotable]
      exact hchild (by decide) hquotable
  · have hplain : ∀ k ∈ ["metadata.annotations.namespace",
        "metadata.annotations.kubectl.\"kubernetes.io/last-applied-configuration\"",
        "metadata.managedFields", "metadata.creationTimestamp", "metadata.generation",
        "metadata.annotations.deprecated.daemonset.template.generation", "metadata.namespace",
        "metadata.resourceVersion", "metadata.selfLink", "metadata.uid"], '"' ∉ k.toList ∨
          k = "metadata.annotations.kubectl.\"kubernetes.io/last-applied-configuration\"" := by
      decide +kernel
    rcases hplain k hk with hno | rfl
    · exact not_mem_parseConcatKey (by decide) hno
    · rw [parseConcatKey_lastApplied]
      decide

/-- The mask of the signature check has every path that the shield writes. -/
theorem shieldPaths_masked {path : String} (hpath : path ∈ shieldPaths) :
    PlainKey path ∧ path ∈ commonMessageMask.map parseConcatKey := by
  have hplain : ∀ path ∈ shieldPaths, PlainKey path := by decide +kernel
  refine ⟨hplain path hpath, ?_⟩
  rcases List.mem_cons.1 hpath with rfl | hpath
  · rw [← parseConcatKey_label quotableName_label]
    exact List.mem_map_of_mem (List.mem_append_left _ (List.mem_append_left _ List.mem_cons_self))
  · obtain ⟨name, hname, rfl⟩ := List.mem_map.1 hpath
    have hmem := (by decide : ∀ name ∈ [lastVerifiedTimestampAnnotationKey, signedByAnnotationKey,
      resourceSignatureUIDAnnotationKey], name ∈ maskedAnnotations) name hname
    rw [← parseConcatKey_annotationPath (quotableName_annotations name hmem)]
    exact List.mem_map_of_mem (List.mem_append_left _
      (List.mem_append_right _ (List.mem_map_of_mem hmem)))

section Match

variable [Outside]

/-- Masked alike, the object shows the same values before and after the patch, but at the
written paths that are not masked. -/
theorem Patched.valueAt_recursiveMask {request : PatchRequest} {r r' : JsonMap}
    (h : Patched request r r') (keys : List String) {k : String}
    (hk : ∀ path ∈ request.paths, keys.any (isListed path) = false → k ≠ path) :
    ((newFromMap r').recursiveMask keys "").valueAt k =
      ((newFromMap r).recursiveMask keys "").valueAt k := by
  rw [Node.valueAt, Node.valueAt, Node.leaves, Node.leaves, leavesFrom_recursiveMask,
    leavesFrom_recursiveMask]
  exact h.lastAt_eq _ k hk

/-- **Matching ignores what the shield writes.**  The patch that `generatePatchBytes` asks for
applies, and the object before and after it match a signed document alike, under the common
mask and further keys without quotes. -/
theorem matchContents_patched (reqc : ReqContext) (ctx : CheckContext) (now : String)
    (request : PatchRequest) (r : JsonMap) (orgObj : Bytes) (extra : List String)
    (allowDiffPatterns : List Difference) (excludeDiffValue : Bool)
    (hpatch : generatePatchBytes reqc ctx now = some request)
    (hobject : Outside.jsonUnmarshal request.reqJson = .ok r) (hmaps : HasStringMaps r)
    (hextra : ∀ k ∈ extra, '"' ∉ k.toList) :
    ∃ r', request.apply r = some (.obj r') ∧
      ∀ patchedObj, Outside.jsonUnmarshal patchedObj = .ok r' → ∃ matched,
        (matchContents orgObj (some request.reqJson) [] (commonMessageMask ++ extra)
          allowDiffPatterns excludeDiffValue).map (·.1.1) = .ok matched ∧
        (matchContents orgObj (some patchedObj) [] (commonMessageMask ++ extra)
          allowDiffPatterns excludeDiffValue).map (·.1.1) = .ok matched := by
  obtain ⟨r', hpatched⟩ := exists_patched hpatch hmaps
  refine ⟨r', hpatched.apply_eq, fun patchedObj hpatchedObj => ?_⟩
  cases horg : newFromYamlBytes orgObj with
  | error e =>
      refine ⟨false, ?_, ?_⟩ <;>
        · simp only [matchContents, horg]
          rfl
  | ok org =>
      have hreq : newFromBytes (some request.reqJson) = .ok (newFromMap r) :=
        newFromBytes_of_jsonUnmarshal hobject
      have hreq' : newFromBytes (some patchedObj) = .ok (newFromMap r') :=
        newFromBytes_of_jsonUnmarshal hpatchedObj
      have hquote : ∀ k ∈ commonMessageMask ++ extra, '"' ∉ (parseConcatKey k).toList := by
        intro k hk
        rcases List.mem_append.1 hk with hk | hk
        · exact commonMessageMask_no_quote hk
        · exact not_mem_parseConcatKey (by decide) (hextra k hk)
      -- the mask is parsed by the first call of `Mask` and once more by the second
      have hparsed : ∀ k ∈ (commonMessageMask ++ extra).map parseConcatKey, '"' ∉ k.toList := by
        intro k hk
        obtain ⟨key, hkey, rfl⟩ := List.mem_map.1 hk
        exact hquote key hkey
      obtain ⟨_, horgKeys, _⟩ := validateKeyList_of_no_quote org hquote
      obtain ⟨validKeys, hkeys, hmem⟩ := validateKeyList_of_no_quote (newFromMap r)
        fun k hk => not_mem_parseConcatKey (by decide) (hparsed k hk)
      have hkeys' := (validateKeyList_congr hpatched.samePlaces hparsed).symm.trans hkeys
      have hmasked : ∀ path ∈ request.paths, validKeys.any (isListed path) = true := by
        intro path hpath
        obtain ⟨hplain, hcommon⟩ := shieldPaths_masked (hpatched.paths path hpath)
        refine List.any_eq_true.2 ⟨path, (hmem path).2 ⟨path, ?_, ?_⟩, isListed_self path⟩
        · rw [List.map_append]
          exact List.mem_append_left _ hcommon
        · rw [hplain.parseConcatKey_eq]
          exact .itself (fun hc => absurd hc (Bool.eq_false_iff.1 hplain.no_brackets)) rfl
      refine ⟨_, matchContents_unfocused horg hreq (mask_of_validateKeyList horgKeys)
        (mask_of_validateKeyList hkeys) _ _, ?_⟩
      rw [matchContents_unfocused horg hreq' (mask_of_validateKeyList horgKeys)
        (mask_of_validateKeyList hkeys')]
      have hvalue : ∀ k, ((newFromMap r').recursiveMask validKeys "").valueAt k =
          ((newFromMap r).recursiveMask validKeys "").valueAt k := fun k =>
        hpatched.valueAt_recursiveMask validKeys fun path hpath hkept =>
          absurd (hmasked path hpath) (Bool.eq_false_iff.1 hkept)
      rw [Except.ok.injEq, Bool.eq_iff_iff, Option.isNone_iff_eq_none, Option.isNone_iff_eq_none,
        diff_eq_none_iff, diff_eq_none_iff]
      simp only [hvalue]

/-- No path that the shield writes has an index in it. -/
theorem hasIndex_shieldPaths : ∀ path ∈ shieldPaths, hasIndex path = false := by
  -- the expression looks up no table
  have hparse : Regexp.parse "\\.\\d+\\." = @Regexp.parse .empty "\\.\\d+\\." := rfl
  have hempty : ∀ path ∈ shieldPaths, @hasIndex .empty path = false := by decide +kernel
  intro path hpath
  rw [hasIndex, Regexp.matchString, hparse]
  exact hempty path hpath

/-- **When the shield's own patch is no mutation.**  The update from an object to the patched
one, or back, passes the mutation check exactly when the attribute lists of the profile have
no null entry, and at each written path the masked objects show the same value already or
the profile has an attribute that covers the path. -/
theorem mutationEval_patched_iff (reqc : ReqContext) (ctx : CheckContext) (now : String)
    (request : PatchRequest) (r r' : JsonMap) (update : ReqContext)
    (signingProfile : ResourceSigningProfile)
    (hpatch : generatePatchBytes reqc ctx now = some request) (hmaps : HasStringMaps r)
    (hpatched : request.apply r = some (.obj r'))
    (hobjects : HasObjects update r r' ∨ HasObjects update r' r) :
    (∃ res, mutationEval update signingProfile = .ok res ∧ res.checked = true ∧
        res.isMutated = false) ↔
      none ∉ signingProfile.spec.ignoreAttrs ++ signingProfile.spec.unprotectAttrs ∧
        ∀ path ∈ request.paths, (maskedObject r).valueAt path = (maskedObject r').valueAt path ∨
          ∃ attr ∈ filterAttrs update signingProfile, isListed path (attr ++ "*") = true := by
  obtain ⟨r'', hframe⟩ := exists_patched hpatch hmaps
  obtain rfl : r'' = r' := Json.obj.inj (Option.some.inj (hframe.apply_eq.symm.trans hpatched))
  -- a path at which the masked objects differ is one of the written ones
  have hwritten : ∀ k, (maskedObject r).valueAt k ≠ (maskedObject r'').valueAt k →
      k ∈ request.paths := by
    intro k hne
    by_contra hk
    refine hne (hframe.valueAt_recursiveMask parsedMutationMask fun path hpath _ => ?_).symm
    rintro rfl
    exact hk hpath
  have huncancelled : ∀ path ∈ request.paths, ∀ t t', ¬Cancelled t t' path := by
    intro path hpath t t' hcancelled
    have hindex := hasIndex_shieldPaths path (hframe.paths path hpath)
    rw [hcancelled.1] at hindex
    cases hindex
  rcases hobjects with h | h
  · rw [mutationEval_passes_iff h]
    refine and_congr_right fun _ => ⟨fun hall path hpath => ?_, fun hall k hne => ?_⟩
    · by_cases hsame : (maskedObject r).valueAt path = (maskedObject r'').valueAt path
      · exact Or.inl hsame
      · exact Or.inr ((hall path hsame).resolve_left (huncancelled path hpath _ _))
    · exact Or.inr ((hall k (hwritten k hne)).resolve_left hne)
  · rw [mutationEval_passes_iff h]
    refine and_congr_right fun _ => ⟨fun hall path hpath => ?_, fun hall k hne => ?_⟩
    · by_cases hsame : (maskedObject r).valueAt path = (maskedObject r'').valueAt path
      · exact Or.inl hsame
      · exact Or.inr ((hall path (Ne.symm hsame)).resolve_left (huncancelled path hpath _ _))
    · exact Or.inr ((hall k (hwritten k (Ne.symm hne))).resolve_left (Ne.symm hne))

end Match

/-- The context of a request whose signature was verified. -/
def verifiedContext : CheckContext where
  allow := true
  signatureEvalResult := { checked := true, allow := true }

/-- The patch that is made in this context. -/
def verifiedRequest : PatchRequest where
  name := "web"
  reqJson := "old"
  labels := GoMap.writes ∅ [(resourceIntegrityLabelKey, labelValueVerified)]
  annotations := GoMap.writes ∅ [(lastVerifiedTimestampAnnotationKey, "2021-01-01T00:00:00Z")]
  deleteKeys := [resourceIntegrityLabelKey, lastVerifiedTimestampAnnotationKey,
    signedByAnnotationKey, resourceSignatureUIDAnnotationKey]

/-- A request to create the object with the text `old`. -/
def webCreate : ReqContext where
  operation := "CREATE"
  name := "web"
  rawObject := some "old"

theorem generatePatchBytes_verified :
    generatePatchBytes webCreate verifiedContext "2021-01-01T00:00:00Z" = some verifiedRequest := by
  rfl

/-- An object with nothing but a name. -/
def webJson : JsonMap := [("metadata", .obj [("name", .scalar (.str "web"))])]

/-- The object with the label and the annotation of the shield. -/
def markedJson : JsonMap :=
  [("metadata", .obj
    [("name", .scalar (.str "web")),
      ("labels", .obj (stringFields [(resourceIntegrityLabelKey, labelValueVerified)])),
      ("annotations", .obj (stringFields
        [(lastVerifiedTimestampAnnotationKey, "2021-01-01T00:00:00Z")]))])]

theorem hasStringMaps_webJson : HasStringMaps webJson :=
  ⟨[("name", .scalar (.str "web"))], [], [], rfl, .absent, .absent⟩

theorem hasStringMaps_markedJson : HasStringMaps markedJson :=
  ⟨_, _, _, rfl, .map [(resourceIntegrityLabelKey, labelValueVerified)],
    .map [(lastVerifiedTimestampAnnotationKey, "2021-01-01T00:00:00Z")]⟩

/-- The patch marks the object, and leaves a marked one as it is. -/
theorem apply_verifiedRequest : verifiedRequest.apply webJson = some (.obj markedJson) ∧
    verifiedRequest.apply markedJson = some (.obj markedJson) := by
  constructor <;> rfl

/-- Libraries that read the two objects, and the first of them off a signed document. -/
@[reducible] def Outside.patching : Outside :=
  { Outside.decoding webJson markedJson with yamlUnmarshal := fun _ => .ok webJson }

theorem matchContents_patched_web :
    letI := Outside.patching
    ∃ matched,
      (matchContents "signed" (some "old") [] (commonMessageMask ++ ["spec.ports[].port"]) []
        false).map (·.1.1) = .ok matched ∧
      (matchContents "signed" (some "new") [] (commonMessageMask ++ ["spec.ports[].port"]) []
        false).map (·.1.1) = .ok matched := by
  let _ := Outside.patching
  obtain ⟨r', hpatched, hsame⟩ := matchContents_patched webCreate verifiedContext
    "2021-01-01T00:00:00Z" verifiedRequest webJson "signed" ["spec.ports[].port"] [] false
    generatePatchBytes_verified rfl hasStringMaps_webJson (by decide)
  have hmarked := Json.obj.inj (Option.some.inj (apply_verifiedRequest.1.symm.trans hpatched))
  exact hsame "new" (congrArg Except.ok hmarked)

theorem mutationEval_patched_marked :
    letI := Outside.decoding markedJson markedJson
    HasObjects podUpdate markedJson markedJson ∧
      ∃ res, mutationEval podUpdate {} = .ok res ∧ res.checked = true ∧ res.isMutated = false := by
  let _ := Outside.decoding markedJson markedJson
  have hobjects : HasObjects podUpdate markedJson markedJson := ⟨by decide, rfl, by decide, rfl⟩
  refine ⟨hobjects, ?_⟩
  exact (mutationEval_patched_iff webCreate verifiedContext "2021-01-01T00:00:00Z" verifiedRequest
    markedJson markedJson podUpdate {} generatePatchBytes_verified hasStringMaps_markedJson
    apply_verifiedRequest.2 (Or.inl hobjects)).2 ⟨List.not_mem_nil, fun _ _ => Or.inl rfl⟩

/-- The mask of the mutation check covers nothing of the two objects. -/
theorem maskedObject_marked [Outside] : maskedObject webJson = newFromMap webJson ∧
    maskedObject markedJson = newFromMap markedJson := by
  have hunmasked : ∀ path ∈ ["metadata", "metadata.name", "metadata.labels", "metadata.annotations",
      "metadata.labels.integrityshield.io/resourceIntegrity",
      "metadata.annotations.integrityshield.io/lastVerifiedTimestamp"], path ∉ mutationMask ∧
        path ≠ "metadata.annotations.kubectl.kubernetes.io/last-applied-configuration" := by
    decide +kernel
  have hpaths := fun path hpath => keyExistsInList_parsedMutationMask (hunmasked path hpath)
  constructor <;>
    simp [maskedObject, webJson, markedJson, stringFields, newFromMap, newNode, newFields,
      resourceIntegrityLabelKey, lastVerifiedTimestampAnnotationKey, Node.recursiveMask, maskFields,
      childKey, hpaths]

/-- The update of the object with the text `new` back to the one with the text `old`. -/
def podRevert : ReqContext := { podUpdate with rawOldObject := some "new", rawObject := some "old" }

/-- **The label is a mutation.**  An object without labels is updated to itself as the shield
patches it, and back, under a profile that allows no changes. -/
theorem mutationEval_label :
    letI := Outside.decoding webJson markedJson
    generatePatchBytes webCreate verifiedContext "2021-01-01T00:00:00Z" = some verifiedRequest ∧
      HasStringMaps webJson ∧ verifiedRequest.apply webJson = some (.obj markedJson) ∧
      HasObjects podUpdate webJson markedJson ∧ HasObjects podRevert markedJson webJson ∧
      ∀ update ∈ [podUpdate, podRevert], ∃ res, mutationEval update {} = .ok res ∧
        res.checked = true ∧ res.isMutated = true := by
  let _ := Outside.decoding webJson markedJson
  have hupdate : HasObjects podUpdate webJson markedJson := ⟨by decide, rfl, by decide, rfl⟩
  have hrevert : HasObjects podRevert markedJson webJson := ⟨by decide, rfl, by decide, rfl⟩
  have hlabel :
      (newFromMap webJson).valueAt (childKey "metadata.labels" resourceIntegrityLabelKey) ≠
        (newFromMap markedJson).valueAt (childKey "metadata.labels" resourceIntegrityLabelKey) := by
    decide +kernel
  have hindex := hasIndex_shieldPaths _ (List.mem_cons_self : childKey "metadata.labels"
    resourceIntegrityLabelKey ∈ shieldPaths)
  -- no difference is filtered, and the one at the label is not cancelled
  have hmutated : ∀ {update : ReqContext} {old new : JsonMap}, HasObjects update old new →
      (maskedObject old).valueAt (childKey "metadata.labels" resourceIntegrityLabelKey) ≠
        (maskedObject new).valueAt (childKey "metadata.labels" resourceIntegrityLabelKey) →
      ∃ res, mutationEval update {} = .ok res ∧ res.checked = true ∧ res.isMutated = true := by
    intro update old new hobjects hne
    obtain ⟨res, hres, hchecked, hpass⟩ :=
      (if_neg List.not_mem_nil).mp (mutationEval_of_objects hobjects {})
    refine ⟨res, hres, hchecked, Bool.not_eq_false _ ▸ fun hunmutated => ?_⟩
    rcases hpass.1 hunmutated _ hne with hcancelled | ⟨_, hattr, _⟩
    · rw [hcancelled.1] at hindex
      cases hindex
    · cases hattr
  refine ⟨generatePatchBytes_verified, hasStringMaps_webJson, apply_verifiedRequest.1, hupdate,
    hrevert, fun update hmem => ?_⟩
  have hsides := maskedObject_marked
  rcases List.mem_cons.1 hmem with rfl | hmem
  · exact hmutated hupdate (by rw [hsides.1, hsides.2]; exact hlabel)
  · rw [List.mem_singleton.1 hmem]
    exact hmutated hrevert (by rw [hsides.1, hsides.2]; exact Ne.symm hlabel)

end Shield
end IntegrityShield
