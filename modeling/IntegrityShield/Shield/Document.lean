/-
# The document of a message for a resource

`FindSingleYaml` of `shield/pkg/util/yaml/yaml.go` takes the reference of a request
for four patterns and returns the first document of a message that they match.  It
is the document of that very resource if each of them is a literal
(`findSingleYaml_document_iff`).  The name of a request may be empty, as with
`generateName`, and the namespace of one that is cluster-scoped is, and the empty
pattern matches everything.
-/

import IntegrityShield.Shield.Message

namespace IntegrityShield
namespace Shield

open Common Apis Mapnode

/-- The bytes of a document with the attributes of a reference; the namespace may
be missing. -/
def IsDocumentOf [Outside] (raw : Bytes) (ref : ResourceRef) : Prop :=
  ∃ n, newFromYamlBytes raw = .ok n ∧ getNodeString n "apiVersion" = ref.apiVersion ∧
    getNodeString n "kind" = ref.kind ∧ getNodeString n "metadata.name" = ref.name ∧
    (getNodeString n "metadata.namespace" = ref.namespace ∨
      getNodeString n "metadata.namespace" = "")

/-- What `FindSingleYaml` has compared. -/
theorem findSingleYaml_matches [Outside] {message raw : Bytes} {ref : ResourceRef}
    (h : findSingleYaml message ref = some raw) :
    ∃ n, newFromYamlBytes raw = .ok n ∧
      matchPattern ref.apiVersion (getNodeString n "apiVersion") = true ∧
      matchPattern ref.kind (getNodeString n "kind") = true ∧
      matchPattern ref.name (getNodeString n "metadata.name") = true ∧
      (matchPattern ref.namespace (getNodeString n "metadata.namespace") = true ∨
        getNodeString n "metadata.namespace" = "") := by
  obtain ⟨ri, hfind, rfl⟩ := Option.map_eq_some_iff.1 h
  have hmatch := List.find?_some hfind
  obtain ⟨doc, _, hri⟩ := List.mem_filterMap.1 (List.mem_of_find?_eq_some hfind)
  unfold resourceInfo at hri
  split at hri
  · cases hri
  rename_i tB _
  split at hri
  · cases hri
  rename_i n hn
  obtain rfl := Option.some.inj hri
  simp only [ResourceInfo.matchRef, Bool.and_eq_true, Bool.or_eq_true, beq_iff_eq,
    and_assoc] at hmatch
  exact ⟨n, hn, hmatch⟩

/-- The attributes of a document. -/
def documentJson (ref : ResourceRef) : JsonMap :=
  [("apiVersion", .scalar (.str ref.apiVersion)), ("kind", .scalar (.str ref.kind)),
    ("metadata", .obj [("name", .scalar (.str ref.name)),
      ("namespace", .scalar (.str ref.namespace))])]

/-- Libraries that read one document out of every message. -/
@[reducible] def Outside.oneDocument (ref : ResourceRef) : Outside :=
  { Outside.silent with
    yamlDocuments := fun _ => [.obj (documentJson ref)]
    yamlMarshal := fun _ => .ok "document"
    yamlUnmarshal := fun _ => .ok (documentJson ref) }

theorem getNodeString_documentJson [Outside] (ref : ResourceRef) :
    getNodeString (newFromMap (documentJson ref)) "apiVersion" = ref.apiVersion ∧
    getNodeString (newFromMap (documentJson ref)) "kind" = ref.kind ∧
    getNodeString (newFromMap (documentJson ref)) "metadata.name" = ref.name ∧
    getNodeString (newFromMap (documentJson ref)) "metadata.namespace" = ref.namespace := by
  have hversion : splitConcatKey "apiVersion" = ["apiVersion"] := by decide +kernel
  have hkind : splitConcatKey "kind" = ["kind"] := by decide +kernel
  have hname : splitConcatKey "metadata.name" = ["metadata", "name"] := by decide +kernel
  have hns : splitConcatKey "metadata.namespace" = ["metadata", "namespace"] := by decide +kernel
  simp [getNodeString, Node.getNode, hversion, hkind, hname, hns, documentJson, newFromMap, newNode,
    newFields, Node.getChild, List.lookup_cons]

/-- The document is found by patterns that match its attributes. -/
theorem findSingleYaml_oneDocument {ref doc : ResourceRef}
    (hversion : matchPattern ref.apiVersion doc.apiVersion = true)
    (hkind : matchPattern ref.kind doc.kind = true) (hname : matchPattern ref.name doc.name = true)
    (hns : matchPattern ref.namespace doc.namespace = true ∨ doc.namespace = "") :
    letI := Outside.oneDocument doc
    findSingleYaml "" ref = some "document" := by
  let _ := Outside.oneDocument doc
  obtain ⟨hv, hk, hn, hs⟩ := getNodeString_documentJson doc
  have hinfo : resourceInfo (.obj (documentJson doc)) = some ⟨doc, "document"⟩ := by
    change some (ResourceInfo.mk ⟨getNodeString (newFromMap (documentJson doc)) "metadata.name",
      getNodeString (newFromMap (documentJson doc)) "metadata.namespace",
      getNodeString (newFromMap (documentJson doc)) "kind",
      getNodeString (newFromMap (documentJson doc)) "apiVersion"⟩ "document") = _
    rw [hv, hk, hn, hs]
  have hparse : parseMessage "" = [⟨doc, "document"⟩] := by
    change [Json.obj (documentJson doc)].filterMap resourceInfo = _
    rw [List.filterMap_cons_some hinfo, List.filterMap_nil]
  have hmatch : ResourceInfo.matchRef ⟨doc, "document"⟩ ref = true := by
    simp [ResourceInfo.matchRef, hversion, hkind, hname, hns]
  rw [findSingleYaml, hparse, List.find?_cons, hmatch]
  rfl

/-- That document is of a resource if its attributes are. -/
theorem isDocumentOf_oneDocument (ref doc : ResourceRef) :
    letI := Outside.oneDocument doc
    IsDocumentOf "document" ref ↔ doc.apiVersion = ref.apiVersion ∧ doc.kind = ref.kind ∧
      doc.name = ref.name ∧ (doc.namespace = ref.namespace ∨ doc.namespace = "") := by
  let _ := Outside.oneDocument doc
  obtain ⟨hv, hk, hn, hs⟩ := getNodeString_documentJson doc
  constructor
  · rintro ⟨n, hread, hdoc⟩
    obtain rfl : newFromMap (documentJson doc) = n := Except.ok.inj hread
    rwa [hv, hk, hn, hs] at hdoc
  · intro hdoc
    refine ⟨newFromMap (documentJson doc), rfl, ?_⟩
    rwa [hv, hk, hn, hs]

/-- **When the document found is that of the resource.**  For every message and all
decoders, precisely if the API version, the kind and the name are literals other
than `-` and the namespace is a literal. -/
theorem findSingleYaml_document_iff (ref : ResourceRef) :
    (∀ [Outside] (message raw : Bytes), findSingleYaml message ref = some raw →
        IsDocumentOf raw ref) ↔
      (IsLiteral ref.apiVersion ∧ ref.apiVersion ≠ "-") ∧ (IsLiteral ref.kind ∧ ref.kind ≠ "-") ∧
        (IsLiteral ref.name ∧ ref.name ≠ "-") ∧ IsLiteral ref.namespace := by
  constructor
  · intro hfound
    -- a document with other attributes that the patterns match would be found
    have hdocument : ∀ doc : ResourceRef, matchPattern ref.apiVersion doc.apiVersion = true →
        matchPattern ref.kind doc.kind = true → matchPattern ref.name doc.name = true →
        matchPattern ref.namespace doc.namespace = true ∨ doc.namespace = "" →
        doc.apiVersion = ref.apiVersion ∧ doc.kind = ref.kind ∧ doc.name = ref.name ∧
          (doc.namespace = ref.namespace ∨ doc.namespace = "") := by
      intro doc hversion hkind hname hns
      rw [← isDocumentOf_oneDocument]
      exact @hfound (Outside.oneDocument doc) "" "document"
        (findSingleYaml_oneDocument hversion hkind hname hns)
    obtain ⟨version, hversion⟩ := exists_matchPattern ref.apiVersion
    obtain ⟨kind, hkind⟩ := exists_matchPattern ref.kind
    obtain ⟨name, hname⟩ := exists_matchPattern ref.name
    refine ⟨?_, ?_, ?_, ?_⟩
    · by_contra hno
      obtain ⟨other, hne, hother⟩ := exists_other_match hno
      exact hne (hdocument ⟨name, "", kind, other⟩ hother hkind hname (.inr rfl)).1
    · by_contra hno
      obtain ⟨other, hne, hother⟩ := exists_other_match hno
      exact hne (hdocument ⟨name, "", other, version⟩ hversion hother hname (.inr rfl)).2.1
    · by_contra hno
      obtain ⟨other, hne, hother⟩ := exists_other_match hno
      exact hne (hdocument ⟨other, "", kind, version⟩ hversion hkind hother (.inr rfl)).2.2.1
    · by_contra hno
      obtain ⟨other, hne, hempty, hother⟩ := exists_match_of_not_literal hno
      rcases (hdocument ⟨name, other, kind, version⟩ hversion hkind hname
        (.inl hother)).2.2.2 with heq | heq
      · exact hne heq
      · exact hempty heq
  · rintro ⟨hversion, hkind, hname, hns⟩ _ message raw hfound
    obtain ⟨n, hn, hv, hk, hnm, hs⟩ := findSingleYaml_matches hfound
    refine ⟨n, hn, eq_of_matchPattern hversion hv, eq_of_matchPattern hkind hk,
      eq_of_matchPattern hname hnm, ?_⟩
    rcases hs with hs | hs
    · exact (eq_of_matchPattern_literal hns hs).imp_right And.right
    · exact .inr hs

/-- **The document of another resource.**  For a request whose name is left to be
generated, the document of any config map is found. -/
theorem findSingleYaml_generateName :
    letI := Outside.oneDocument ⟨"trusted", "ns", "ConfigMap", "v1"⟩
    findSingleYaml "" ⟨"", "ns", "ConfigMap", "v1"⟩ = some "document" ∧
      ¬IsDocumentOf "document" ⟨"", "ns", "ConfigMap", "v1"⟩ := by
  let _ := Outside.oneDocument ⟨"trusted", "ns", "ConfigMap", "v1"⟩
  refine ⟨findSingleYaml_oneDocument ?_ ?_ ?_ (.inl ?_), ?_⟩
  · decide +kernel
  · decide +kernel
  · decide +kernel
  · decide +kernel
  · rw [isDocumentOf_oneDocument]
    rintro ⟨_, _, hname, _⟩
    exact absurd hname (by decide)

end Shield
end IntegrityShield
