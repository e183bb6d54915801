/-
# The metadata that a patch is meant to give

`generatePatchBytes` of `shield/pkg/shield/utilPatch.go` asks for a label and annotations, and for
four keys to be deleted: those an earlier verification may have left.  `createJSONPatchBytes`
looks each key up with `gjson` before it removes it, and the keys have a dot in them, so none is
ever found.  What the new annotations do not write over stays.

`apply_intended_iff` says for which objects the patch gives the intended metadata all the same:
those without an annotation that the new ones leave out.
-/

import IntegrityShield.Shield.PatchedObject

namespace IntegrityShield
namespace Shield

open Common Apis Mapnode

/-- The entries are those of the value. -/
theorem HoldsLabels.unique {data : Option Json} {entries entries' : List (String × String)}
    (h : HoldsLabels data entries) (h' : HoldsLabels data entries') : entries = entries' := by
  cases data with
  | none =>
      cases h
      cases h'
      rfl
  | some data => exact h.stringEntries_eq.symm.trans h'.stringEntries_eq

theorem HoldsLabels.labelsJson (m : Labels) :
    HoldsLabels (some (labelsJson m)) (m.entries.map fun e => (e.1, e.2)) :=
  .map _

/-- **Writing a map** lays the new values over the old ones. -/
theorem HoldsLabels.writeMap {field : String} {values : Labels} {fields : JsonMap}
    {entries : List (String × String)} (h : HoldsLabels (fields.lookup field) entries)
    (hdots : ∀ key ∈ values, '.' ∈ key.toList) :
    ∃ entries', HoldsLabels ((writeMap field values fields).lookup field) entries' ∧
      ∀ key, GoMap.lastAt entries' key = (values.lookup key).or (GoMap.lastAt entries key) := by
  rw [Shield.writeMap]
  split_ifs with hne
  · refine ⟨_, by rw [lookup_setField, if_pos rfl]; exact .labelsJson _, fun key => ?_⟩
    rw [GoMap.lastAt_entries, lookup_overlaid h hdots]
  · refine ⟨entries, h, fun key => ?_⟩
    have hempty : values.lookup key = none := by
      refine AList.lookup_eq_none.2 fun hmem => ?_
      obtain ⟨e, he, _⟩ := List.mem_map.1 hmem
      exact hne (List.length_pos_of_mem he)
    rw [hempty, Option.none_or]

/-- The metadata that a request is to give: the labels over the old ones, the annotations over the
old ones without the keys to delete, and the rest as it was. -/
structure IntendedMetadata (request : PatchRequest) (metadata : JsonMap)
    (oldLabels oldAnnotations : List (String × String)) (metadata' : JsonMap) : Prop where
  rest : ∀ field, field ≠ "labels" → field ≠ "annotations" →
    metadata'.lookup field = metadata.lookup field
  labels : ∃ labels, HoldsLabels (metadata'.lookup "labels") labels ∧ ∀ key,
    GoMap.lastAt labels key = (request.labels.lookup key).or (GoMap.lastAt oldLabels key)
  annotations : ∃ annotations, HoldsLabels (metadata'.lookup "annotations") annotations ∧ ∀ key,
    GoMap.lastAt annotations key = (request.annotations.lookup key).or
      (if key ∈ request.deleteKeys then none else GoMap.lastAt oldAnnotations key)

/-- The keys to delete that the new annotations do not write over. -/
def staleKeys (ctx : CheckContext) : List String :=
  if verifyResultLabel ctx = labelValueVerified then
    [resourceIntegrityLabelKey] ++
      (if ctx.signatureEvalResult.signerName = "" then [signedByAnnotationKey] else []) ++
      (if ctx.signatureEvalResult.resourceSignatureUID = "" then
        [resourceSignatureUIDAnnotationKey] else [])
  else [resourceIntegrityLabelKey, lastVerifiedTimestampAnnotationKey, signedByAnnotationKey,
    resourceSignatureUIDAnnotationKey]

theorem mem_staleKeys_iff {reqc : ReqContext} {ctx : CheckContext} {now : String}
    {request : PatchRequest} (h : generatePatchBytes reqc ctx now = some request) (key : String) :
    key ∈ staleKeys ctx ↔ key ∈ request.deleteKeys ∧ key ∉ request.annotations := by
  rw [generatePatchBytes] at h
  split_ifs at h
  obtain rfl := Option.some.inj h
  show _ ↔ key ∈ _ ∧ key ∉ verifyAnnotations ctx now
  rw [mem_verifyAnnotations_iff, staleKeys]
  by_cases hverified : verifyResultLabel ctx = labelValueVerified
  · rw [if_pos hverified, and_iff_right hverified]
    have hnodup : [resourceIntegrityLabelKey, lastVerifiedTimestampAnnotationKey,
        signedByAnnotationKey, resourceSignatureUIDAnnotationKey].Nodup := by decide
    simp only [List.nodup_cons, List.mem_cons, List.not_mem_nil, not_or] at hnodup
    by_cases hsigner : ctx.signatureEvalResult.signerName = "" <;>
      by_cases huid : ctx.signatureEvalResult.resourceSignatureUID = "" <;>
      simp only [hsigner, huid, List.mem_append, List.mem_cons, List.not_mem_nil, if_true,
        if_false] <;>
      grind
  · rw [if_neg hverified, and_iff_left fun h => hverified h.1]

/-- **When the patch gives the intended metadata.** -/
theorem apply_intended_iff {reqc : ReqContext} {ctx : CheckContext} {now : String}
    {request : PatchRequest} (hpatch : generatePatchBytes reqc ctx now = some request)
    {r metadata : JsonMap} (hmetadata : r.lookup "metadata" = some (.obj metadata))
    {oldLabels oldAnnotations : List (String × String)}
    (hlabels : HoldsLabels (metadata.lookup "labels") oldLabels)
    (hannotations : HoldsLabels (metadata.lookup "annotations") oldAnnotations) :
    (∃ r' metadata', request.apply r = some (.obj r') ∧
      (∀ field, field ≠ "metadata" → r'.lookup field = r.lookup field) ∧
      r'.lookup "metadata" = some (.obj metadata') ∧
      IntendedMetadata request metadata oldLabels oldAnnotations metadata') ↔
    ∀ key ∈ staleKeys ctx, key ∉ oldAnnotations.map Prod.fst := by
  obtain ⟨hlabelDots, hannotationDots, hdeleteDots⟩ := dots_of_generatePatchBytes hpatch
  have happly := applyPatch_createJSONPatchBytes hmetadata hlabels hannotations
    (fun key hkey => hkey.elim (hlabelDots key) (hannotationDots key)) hdeleteDots request.name
  have hannotations' : HoldsLabels ((writeMap "labels" request.labels metadata).lookup
      "annotations") oldAnnotations := by
    rw [lookup_writeMap_of_ne (by decide)]
    exact hannotations
  obtain ⟨newLabels, hnewLabels, hlabelsAt⟩ := hlabels.writeMap hlabelDots
  obtain ⟨newAnnotations, hnewAnnotations, hannotationsAt⟩ := hannotations'.writeMap hannotationDots
  constructor
  · rintro ⟨r', metadata', hr', _, hmetadata', hintended⟩ key hkey
    obtain rfl := Json.obj.inj (Option.some.inj (happly.symm.trans hr'))
    rw [lookup_setField, if_pos rfl] at hmetadata'
    obtain rfl := Json.obj.inj (Option.some.inj hmetadata')
    obtain ⟨annotations, hholds, hat⟩ := hintended.annotations
    obtain rfl := hholds.unique hnewAnnotations
    obtain ⟨hdelete, hnot⟩ := (mem_staleKeys_iff hpatch key).1 hkey
    have hkept := (hannotationsAt key).symm.trans (hat key)
    rw [AList.lookup_eq_none.2 hnot, Option.none_or, Option.none_or, if_pos hdelete] at hkept
    exact GoMap.lastAt_eq_none_iff.1 hkept
  · intro hstale
    refine ⟨_, _, happly, fun field hfield => by rw [lookup_setField, if_neg hfield],
      by rw [lookup_setField, if_pos rfl], fun field hl ha => ?_, ⟨newLabels, ?_, hlabelsAt⟩,
      newAnnotations, hnewAnnotations, fun key => ?_⟩
    · rw [lookup_writeMap_of_ne ha, lookup_writeMap_of_ne hl]
    · rw [lookup_writeMap_of_ne (by decide)]
      exact hnewLabels
    · rw [hannotationsAt]
      by_cases hkey : key ∈ request.annotations
      · obtain ⟨value, hvalue⟩ := Option.isSome_iff_exists.1 (AList.lookup_isSome.2 hkey)
        rw [hvalue, Option.some_or, Option.some_or]
      · split_ifs with hdelete
        · have hstaleKey := (mem_staleKeys_iff hpatch key).2 ⟨hdelete, hkey⟩
          rw [GoMap.lastAt_eq_none_iff.2 (hstale key hstaleKey)]
        · rfl

/-- An object without annotations gets the intended ones. -/
theorem apply_intended_web :
    ∃ r' metadata', verifiedRequest.apply webJson = some (.obj r') ∧
      (∀ field, field ≠ "metadata" → r'.lookup field = webJson.lookup field) ∧
      r'.lookup "metadata" = some (.obj metadata') ∧
      IntendedMetadata verifiedRequest [("name", .scalar (.str "web"))] [] [] metadata' := by
  have hmetadata : webJson.lookup "metadata" = some (.obj [("name", .scalar (.str "web"))]) := rfl
  exact (apply_intended_iff generatePatchBytes_verified hmetadata .absent .absent).2
    fun _ _ => List.not_mem_nil

/-- An object that a signer was verified for. -/
def signedJson : JsonMap :=
  [("metadata", .obj
    [("labels", .obj (stringFields [(resourceIntegrityLabelKey, labelValueVerified)])),
      ("annotations", .obj (stringFields [(signedByAnnotationKey, "alice")]))])]

/-- The same object once it is admitted in break glass mode. -/
def breakGlassJson : JsonMap :=
  [("metadata", .obj
    [("labels", .obj (stringFields [(resourceIntegrityLabelKey, labelValueUnverified)])),
      ("annotations", .obj (stringFields [(signedByAnnotationKey, "alice")]))])]

/-- **The signer stays** in an object that is now unverified, though its key is to be deleted. -/
theorem apply_breakGlass_stale :
    ∃ request, generatePatchBytes webCreate { allow := true, breakGlassModeEnabled := true }
        "2021-01-01T00:00:00Z" = some request ∧
      signedByAnnotationKey ∈ request.deleteKeys ∧ signedByAnnotationKey ∉ request.annotations ∧
      request.apply signedJson = some (.obj breakGlassJson) := by
  refine ⟨_, rfl, by decide, AList.notMem_empty _, rfl⟩

end Shield
end IntegrityShield
