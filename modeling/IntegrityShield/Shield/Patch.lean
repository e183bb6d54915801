/-
# The patch of an admitted object

`createJSONPatchBytes` of `shield/pkg/shield/utilPatch.go`, and JSON Patch (RFC 6902) as far
as its operations go.

The writer reads the object with `gjson`, whose paths are split at their dots.  The keys of
the shield, such as `integrityshield.io/signedBy`, are then two names, and neither is found
in a map of strings.  So no key is ever removed, and every new value is written over what
stands there: `applyPatch_createJSONPatchBytes` says what the patch makes of the object.
-/

import IntegrityShield.Mapnode.Overlay
import IntegrityShield.Shield.Handler

namespace IntegrityShield

namespace Mapnode

/-! ## Reading a path -/

/-- What `gjson` finds under one name of a path; a name of digits is an index of a list. -/
def Json.child : Json → String → Option Json
  | .obj fields, name => fields.lookup name
  | .arr elems, name => (Strings.digits name.toList).bind fun i => elems[i]?
  | _, _ => none

/-- `gjson.Get`, and `Get` of a result: the path is split at its dots.  A null that is found
exists. -/
def Json.get (j : Json) (path : String) : Option Json :=
  (Strings.split path '.').foldlM Json.child j

/-! ## Applying a patch -/

/-- The names of a JSON pointer. -/
def pointer (path : String) : List String :=
  ((Strings.split path '/').drop 1).map fun token =>
    Strings.replaceAll (Strings.replaceAll token "~1" "/") "~0" "~"

/-- The index that a name of a pointer stands for: digits without a leading zero. -/
def pointerIndex (name : String) : Option ℕ :=
  (Strings.digits name.toList).filter fun i => Strings.itoa i == name

/-- A value changed at the place that the names lead to, which must exist. -/
def Json.modifyAt (f : Json → Option Json) : List String → Json → Option Json
  | [], j => f j
  | name :: rest, .obj fields => do
      let child ← fields.lookup name
      let child ← child.modifyAt f rest
      return .obj (setField name child fields)
  | name :: rest, .arr elems => do
      let i ← pointerIndex name
      let child ← elems[i]?
      let child ← child.modifyAt f rest
      return .arr (elems.set i child)
  | _ :: _, _ => none

/-- `add` to a parent: an entry is written, an element inserted before another or at the
end. -/
def Json.addMember (name : String) (value : Json) : Json → Option Json
  | .obj fields => some (.obj (setField name value fields))
  | .arr elems =>
      if name = "-" then some (.arr (elems ++ [value]))
      else (pointerIndex name).bind fun i =>
        if i ≤ elems.length then some (.arr (elems.insertIdx i value)) else none
  | _ => none

/-- `remove` from a parent; the member must exist. -/
def Json.removeMember (name : String) : Json → Option Json
  | .obj fields =>
      if (fields.lookup name).isSome then some (.obj (fields.filter fun f => f.1 != name)) else none
  | .arr elems => (pointerIndex name).bind fun i =>
      if i < elems.length then some (.arr (elems.eraseIdx i)) else none
  | _ => none

end Mapnode

namespace Shield

open Common Mapnode

/-- `PatchOperation`. -/
inductive PatchOperation where
  | add (path : String) (value : Json)
  | remove (path : String)

/-- One operation of RFC 6902; adding at the root replaces the document. -/
def PatchOperation.apply : PatchOperation → Json → Option Json
  | .add path value, j =>
      match (pointer path).getLast? with
      | none => some value
      | some name => j.modifyAt (Json.addMember name value) (pointer path).dropLast
  | .remove path, j => (pointer path).getLast?.bind fun name =>
      j.modifyAt (Json.removeMember name) (pointer path).dropLast

/-- A patch: its operations one after the other, none of which may fail. -/
def applyPatch (patch : List PatchOperation) (j : Json) : Option Json :=
  patch.foldlM (fun j op => op.apply j) j

/-! ## Writing a patch -/

/-- A `map[string]string` as a JSON value. -/
def labelsJson (m : Labels) : Json := .obj (stringFields (m.entries.map fun e => (e.1, e.2)))

/-- The strings among the entries of `Value().(map[string]interface{})`. -/
def stringEntries : Json → List (String × String)
  | .obj fields => fields.filterMap fun f =>
      match f.2 with
      | .scalar (.str s) => some (f.1, s)
      | _ => none
  | _ => []

/-- `addMap`: the strings that are there, and over them the new values whose key is not
found. -/
def addMap (data : Json) (values : Labels) : Labels :=
  GoMap.writes (GoMap.writes ∅ (stringEntries data))
    ((values.entries.filter fun e => !(data.get e.1).isSome).map fun e => (e.1, e.2))

/-- The operations for `metadata.labels`, or `metadata.annotations`, of an object with
metadata. -/
def mapOperations (reqJson : Json) (field : String) (values : Labels) (deleteKeys : List String) :
    List PatchOperation :=
  match reqJson.get ("metadata." ++ field) with
  | some data =>
      ((deleteKeys.filter fun key => (data.get key).isSome).map fun key =>
        .remove ("/metadata/" ++ field ++ "/" ++ key)) ++
      if 0 < (addMap data values).entries.length then
        [.add ("/metadata/" ++ field) (labelsJson (addMap data values))]
      else []
  | none => [.add ("/metadata/" ++ field) (labelsJson values)]

/-- `createJSONPatchBytes`, for the object that `reqJson` is the text of. -/
def createJSONPatchBytes (name : String) (reqJson : Json) (labels annotations : Labels)
    (deleteKeys : List String) : List PatchOperation :=
  let hasMetadata := (reqJson.get "metadata").isSome
  (if 0 < labels.entries.length then
      if hasMetadata then mapOperations reqJson "labels" labels deleteKeys
      else [.add "/metadata/name" (.scalar (.str name)),
        .add "/metadata/labels" (labelsJson labels)]
    else []) ++
  (if 0 < annotations.entries.length then
      if hasMetadata then mapOperations reqJson "annotations" annotations deleteKeys
      else [.add "/metadata/annotations" (labelsJson annotations)]
    else [])

/-- The object after the patch that is made for it. -/
def PatchRequest.apply (request : PatchRequest) (r : JsonMap) : Option Json :=
  applyPatch (createJSONPatchBytes request.name (.obj r) request.labels request.annotations
    request.deleteKeys) (.obj r)

/-! ## What the patch makes of the object -/

/-- What `metadata` may have under `labels` and `annotations`: nothing, a null, or a map of
strings. -/
inductive HoldsLabels : Option Json → List (String × String) → Prop
  | absent : HoldsLabels none []
  | null : HoldsLabels (some .null) []
  | map (entries : List (String × String)) :
      HoldsLabels (some (.obj (stringFields entries))) entries

theorem HoldsLabels.holdsStrings {data : Option Json} {entries : List (String × String)}
    (h : HoldsLabels data entries) : ((data.map newNode).getD .null).HoldsStrings entries := by
  cases h with
  | absent => exact .null
  | null => exact .null
  | map =>
      rw [Option.map_some, Option.getD_some, newNode]
      exact .map entries

theorem HoldsLabels.stringEntries_eq {data : Json} {entries : List (String × String)}
    (h : HoldsLabels (some data) entries) : stringEntries data = entries := by
  cases h with
  | null => rfl
  | map =>
      rw [stringEntries, stringFields, List.filterMap_map]
      exact List.filterMap_some

/-- A key with a dot in it is not found in a map of strings. -/
theorem HoldsLabels.get_eq_none {data : Json} {entries : List (String × String)}
    (h : HoldsLabels (some data) entries) {key : String} (hdot : '.' ∈ key.toList) :
    data.get key = none := by
  obtain ⟨first, second, rest, hsplit⟩ := Strings.exists_split_of_mem hdot
  rw [Json.get, hsplit, List.foldlM_cons]
  cases h with
  | null => rfl
  | map =>
      rw [Json.child]
      cases hchild : (stringFields entries).lookup first with
      | none => rfl
      | some child =>
          -- what is found is a string, which has nothing under a name
          obtain ⟨e, _, he⟩ := List.mem_map.1 (mem_of_lookup_eq_some hchild)
          rw [← (Prod.mk.inj he).2]
          rfl

/-- The value that is written: the new labels over the old ones. -/
def overlaid : Option Json → Labels → Labels
  | some data, values => addMap data values
  | none, values => values

theorem lookup_overlaid {data : Option Json} {entries : List (String × String)}
    (h : HoldsLabels data entries) {values : Labels} (hdots : ∀ key ∈ values, '.' ∈ key.toList)
    (key : String) :
    (overlaid data values).lookup key = (values.lookup key).or (GoMap.lastAt entries key) := by
  cases data with
  | none =>
      cases h
      exact Option.or_none.symm
  | some data =>
      rw [overlaid, addMap, GoMap.lookup_writes_from, GoMap.lookup_writes,
        GoMap.lastAt_filter_entries values fun k => !(data.get k).isSome, h.stringEntries_eq]
      by_cases hkey : key ∈ values
      · rw [h.get_eq_none (hdots key hkey)]
        rfl
      · rw [AList.lookup_eq_none.2 hkey, ite_self]

/-- The metadata with new values over those of a field. -/
def writeMap (field : String) (values : Labels) (fields : JsonMap) : JsonMap :=
  if 0 < values.entries.length then
    setField field (labelsJson (overlaid (fields.lookup field) values)) fields
  else fields

theorem lookup_writeMap_of_ne {field other : String} (h : other ≠ field) (values : Labels)
    (fields : JsonMap) : (writeMap field values fields).lookup other = fields.lookup other := by
  rw [writeMap]
  split_ifs
  · rw [lookup_setField, if_neg h]
  · rfl

section Apply

variable {r metadata : JsonMap} (hmetadata : r.lookup "metadata" = some (.obj metadata))

include hmetadata

theorem get_metadata : (Json.obj r).get "metadata" = some (.obj metadata) := by
  rw [Json.get, Strings.split_of_not_mem (by decide), List.foldlM_cons, Json.child, hmetadata]
  rfl

theorem get_metadata_field {field : String} (hfield : '.' ∉ field.toList) :
    (Json.obj r).get ("metadata." ++ field) = metadata.lookup field := by
  have hsplit : Strings.split ("metadata." ++ field) '.' = ["metadata", field] := by
    have h := Strings.split_append "metadata" field '.'
    rwa [Strings.split_of_not_mem (s := field) hfield,
      Strings.split_of_not_mem (s := "metadata") (by decide)] at h
  rw [Json.get, hsplit, List.foldlM_cons, Json.child, hmetadata]
  exact bind_pure (metadata.lookup field)

/-- The operations for a field write it once. -/
theorem mapOperations_eq {field : String} (hfield : '.' ∉ field.toList)
    {entries : List (String × String)} (h : HoldsLabels (metadata.lookup field) entries)
    {values : Labels} (hne : 0 < values.entries.length) (hdots : ∀ key ∈ values, '.' ∈ key.toList)
    {deleteKeys : List String} (hdelete : ∀ key ∈ deleteKeys, '.' ∈ key.toList) :
    mapOperations (.obj r) field values deleteKeys =
      [.add ("/metadata/" ++ field) (labelsJson (overlaid (metadata.lookup field) values))] := by
  rw [mapOperations, get_metadata_field hmetadata hfield]
  have hlookup := lookup_overlaid h hdots
  cases hdata : metadata.lookup field with
  | none => rfl
  | some data =>
      rw [hdata] at h hlookup
      have hremove : deleteKeys.filter (fun key => (data.get key).isSome) = [] := by
        rw [List.filter_eq_nil_iff]
        intro key hkey
        rw [h.get_eq_none (hdelete key hkey)]
        exact Bool.false_ne_true
      have hadd : 0 < (addMap data values).entries.length := by
        obtain ⟨e, he⟩ := List.exists_mem_of_length_pos hne
        have hmem : e.1 ∈ overlaid (some data) values := by
          rw [← AList.lookup_isSome, hlookup, Option.isSome_or,
            AList.lookup_isSome.2 (List.mem_map_of_mem he), Bool.true_or]
        obtain ⟨e', he', _⟩ := List.mem_map.1 hmem
        exact List.length_pos_of_mem he'
      simp only [hremove, List.map_nil, List.nil_append, if_pos hadd, overlaid]

/-- Adding a field of the metadata writes its entry. -/
theorem apply_add_field {field : String}
    (hpointer : pointer ("/metadata/" ++ field) = ["metadata", field]) (value : Json) :
    (PatchOperation.add ("/metadata/" ++ field) value).apply (.obj r) =
      some (.obj (setField "metadata" (.obj (setField field value metadata)) r)) := by
  simp only [PatchOperation.apply, hpointer, List.getLast?_cons_cons, List.getLast?_singleton,
    List.dropLast_cons_cons, List.dropLast_singleton, Json.modifyAt, hmetadata, Json.addMember]
  rfl

/-- The operations for a field, made for `r` and applied to an object `r'` with the same
metadata there. -/
theorem applyPatch_mapOperations {field : String} (hfield : '.' ∉ field.toList)
    (hpointer : pointer ("/metadata/" ++ field) = ["metadata", field])
    {entries : List (String × String)} (h : HoldsLabels (metadata.lookup field) entries)
    {values : Labels} (hdots : ∀ key ∈ values, '.' ∈ key.toList)
    {deleteKeys : List String} (hdelete : ∀ key ∈ deleteKeys, '.' ∈ key.toList)
    {r' metadata' : JsonMap} (hmetadata' : r'.lookup "metadata" = some (.obj metadata'))
    (hsame : metadata'.lookup field = metadata.lookup field) :
    applyPatch (if 0 < values.entries.length then mapOperations (.obj r) field values deleteKeys
      else []) (.obj r') =
      some (.obj (setField "metadata" (.obj (writeMap field values metadata')) r')) := by
  rw [writeMap]
  split_ifs with hne
  · rw [mapOperations_eq hmetadata hfield h hne hdots hdelete, applyPatch, List.foldlM_cons,
      apply_add_field hmetadata' hpointer, hsame]
    rfl
  · rw [setField_of_lookup hmetadata']
    rfl

/-- **What the patch makes of the object**: new labels and annotations over the old ones, and
nothing else. -/
theorem applyPatch_createJSONPatchBytes {labels annotations : Labels}
    {oldLabels oldAnnotations : List (String × String)}
    (hlabels : HoldsLabels (metadata.lookup "labels") oldLabels)
    (hannotations : HoldsLabels (metadata.lookup "annotations") oldAnnotations)
    (hdots : ∀ key, key ∈ labels ∨ key ∈ annotations → '.' ∈ key.toList)
    {deleteKeys : List String} (hdelete : ∀ key ∈ deleteKeys, '.' ∈ key.toList) (name : String) :
    applyPatch (createJSONPatchBytes name (.obj r) labels annotations deleteKeys) (.obj r) =
      some (.obj (setField "metadata" (.obj (writeMap "annotations" annotations
        (writeMap "labels" labels metadata))) r)) := by
  have hother := lookup_writeMap_of_ne (by decide : "annotations" ≠ "labels") labels metadata
  have hfirst := applyPatch_mapOperations hmetadata (by decide) (by decide +kernel) hlabels
    (fun key hkey => hdots key (Or.inl hkey)) hdelete hmetadata rfl
  have hwritten : (setField "metadata" (.obj (writeMap "labels" labels metadata)) r).lookup
      "metadata" = some (.obj (writeMap "labels" labels metadata)) := by
    rw [lookup_setField, if_pos rfl]
  have hsecond := applyPatch_mapOperations hmetadata (by decide) (by decide +kernel) hannotations
    (fun key hkey => hdots key (Or.inr hkey)) hdelete hwritten hother
  rw [setField_setField] at hsecond
  simp only [createJSONPatchBytes, get_metadata hmetadata, Option.isSome_some, if_true]
  rw [applyPatch, List.foldlM_append, ← applyPatch, hfirst]
  exact hsecond

end Apply

end Shield
end IntegrityShield
