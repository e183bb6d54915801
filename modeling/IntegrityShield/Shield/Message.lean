/-
# Signed messages

`shield/pkg/util/yaml/yaml.go`, and the search for a signature in
`shield/pkg/apis/resourcesignature/v1alpha1/types.go`.

A signed message is base64, perhaps compressed, and holds several documents.
The one for a resource is found by its API version, kind, name and namespace,
and is what the request is compared with; the signature is over the whole.
-/

import IntegrityShield.Shield.Outside

namespace IntegrityShield
namespace Shield

open Common Apis Mapnode

/-- `ResourceInfo`. -/
structure ResourceInfo where
  ref : ResourceRef
  raw : Bytes

variable [Outside]

/-- `Base64decode`. -/
def base64decode (str : String) : String := (Outside.base64Decode str).getD ""

/-- `Decompress`. -/
def decompress (str : String) : String :=
  if str = "" then str else (Outside.gunzip str).getD str

/-- One document of a message; one that cannot be written or read back is
skipped. -/
def resourceInfo (t : Json) : Option ResourceInfo :=
  match Outside.yamlMarshal t with
  | .error _ => none
  | .ok tB =>
      match newFromYamlBytes tB with
      | .error _ => none
      | .ok n => some {
          ref := {
            apiVersion := getNodeString n "apiVersion"
            kind := getNodeString n "kind"
            name := getNodeString n "metadata.name"
            «namespace» := getNodeString n "metadata.namespace" }
          raw := tB }

/-- `ParseMessage`. -/
def parseMessage (message : Bytes) : List ResourceInfo :=
  (Outside.yamlDocuments (decompress (base64decode message))).filterMap resourceInfo

/-- Whether a document is the one for a resource. -/
def ResourceInfo.matchRef (ri : ResourceInfo) (ref : ResourceRef) : Bool :=
  matchPattern ref.apiVersion ri.ref.apiVersion && matchPattern ref.kind ri.ref.kind &&
    matchPattern ref.name ri.ref.name &&
    (matchPattern ref.namespace ri.ref.namespace || ri.ref.namespace == "")

/-- `FindSingleYaml`. -/
def findSingleYaml (message : Bytes) (ref : ResourceRef) : Option Bytes :=
  ((parseMessage message).find? fun ri => ri.matchRef ref).map ResourceInfo.raw

/-- `ResourceSignature.FindSignItem`. -/
def ResourceSignature.findSignItem (ref : ResourceRef) :
    List (Option SignItem) → Go (Option (SignItem × Bytes))
  | [] => .ok none
  | si :: rest => do
      let si ← Go.deref si
      match findSingleYaml si.message ref with
      | some yamlBytes => return some (si, yamlBytes)
      | none => ResourceSignature.findSignItem ref rest

/-- `ResourceSignatureList.FindSignItem`, with the UID. -/
def findSignItem (ref : ResourceRef) :
    List (Option ResourceSignature) → Go (Option (SignItem × Bytes × String))
  | [] => .ok none
  | ss :: rest => do
      let ss ← Go.deref ss
      match ← ResourceSignature.findSignItem ref ss.data with
      | some (si, yamlBytes) => return some (si, yamlBytes, ss.uid)
      | none => findSignItem ref rest

/-- The document found is one of those of the decoded message. -/
theorem findSingleYaml_eq_some {message : Bytes} {ref : ResourceRef} {yamlBytes : Bytes}
    (h : findSingleYaml message ref = some yamlBytes) :
    ∃ doc ∈ Outside.yamlDocuments (decompress (base64decode message)),
      Outside.yamlMarshal doc = .ok yamlBytes := by
  obtain ⟨ri, hfind, rfl⟩ := Option.map_eq_some_iff.1 h
  obtain ⟨doc, hdoc, hri⟩ := List.mem_filterMap.1 (List.mem_of_find?_eq_some hfind)
  refine ⟨doc, hdoc, ?_⟩
  unfold resourceInfo at hri
  split at hri
  · cases hri
  · rename_i tB hmarshal
    split at hri
    · cases hri
    · rw [← Option.some.inj hri]
      exact hmarshal

theorem ResourceSignature.findSignItem_eq_some {ref : ResourceRef} {data : List (Option SignItem)}
    {si : SignItem} {yamlBytes : Bytes}
    (h : ResourceSignature.findSignItem ref data = .ok (some (si, yamlBytes))) :
    some si ∈ data ∧ findSingleYaml si.message ref = some yamlBytes := by
  induction data with
  | nil => cases h
  | cons item rest ih =>
      rw [ResourceSignature.findSignItem, Go.bind_eq_ok] at h
      obtain ⟨si', hsi', h⟩ := h
      cases item with
      | none => cases hsi'
      | some item =>
          obtain rfl := Except.ok.inj hsi'
          cases hfind : findSingleYaml item.message ref with
          | some found =>
              simp only [hfind] at h
              cases h
              exact ⟨List.mem_cons_self, hfind⟩
          | none =>
              simp only [hfind] at h
              obtain ⟨hmem, hyaml⟩ := ih h
              exact ⟨List.mem_cons_of_mem _ hmem, hyaml⟩

/-- An item found is one of those of a signature of the list, with its
document. -/
theorem findSignItem_eq_some {ref : ResourceRef} {items : List (Option ResourceSignature)}
    {si : SignItem} {yamlBytes : Bytes} {uid : String}
    (h : findSignItem ref items = .ok (some (si, yamlBytes, uid))) :
    (∃ ss, some ss ∈ items ∧ some si ∈ ss.data ∧ ss.uid = uid) ∧
      findSingleYaml si.message ref = some yamlBytes := by
  induction items with
  | nil => cases h
  | cons item rest ih =>
      rw [findSignItem, Go.bind_eq_ok] at h
      obtain ⟨ss, hss, h⟩ := h
      cases item with
      | none => cases hss
      | some item =>
          obtain rfl := Except.ok.inj hss
          obtain ⟨found, hfound, h⟩ := Go.bind_eq_ok.1 h
          cases found with
          | none =>
              obtain ⟨⟨ss, hmem, hdata, huid⟩, hyaml⟩ := ih h
              exact ⟨⟨ss, List.mem_cons_of_mem _ hmem, hdata, huid⟩, hyaml⟩
          | some found =>
              cases h
              obtain ⟨hdata, hyaml⟩ := ResourceSignature.findSignItem_eq_some hfound
              exact ⟨⟨item, List.mem_cons_self, hdata, rfl⟩, hyaml⟩

end Shield
end IntegrityShield
