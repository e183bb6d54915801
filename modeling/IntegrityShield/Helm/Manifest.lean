/-
# Objects and the manifest of their release

`matchWithManifest` of `shield/pkg/plugins/helm/helm.go`, by which an object is recognised as part
of a helm release: nothing that the manifest says of it may be changed or missing.

The answer is the size of a difference, and the difference of objects with equal flattened maps is
nil, whose size cannot be taken.  For all others it is the inclusion of the flattened maps
(`matchWithManifest_eq_ok_iff`), which for plain objects is that of the leaves (`extends_iff_flat`).
-/

import IntegrityShield.Mapnode.Faithful
import IntegrityShield.Shield.Mutation

namespace IntegrityShield
namespace Helm

open Common Mapnode Shield

section

variable [Outside]

/-- `matchWithManifest`. -/
def matchWithManifest (requestObject manifestObject : Option Bytes) : Go Bool := do
  let reqNode := nodeOrEmpty (newFromBytes requestObject)
  let mnfNode := nodeOrEmpty (newFromBytes manifestObject)
  let diff ← Go.deref (mnfNode.findUpdatedAndDeleted reqNode)
  return diff.size == 0

end

/-- Every leaf of the manifest is a leaf of the request. -/
def Extends (request manifest : JsonMap) : Prop :=
  ∀ segs v, (Json.obj manifest).Leaf segs v → (Json.obj request).Leaf segs v

/-- Every entry of the flattened manifest is one of the flattened request. -/
def FlatExtends (request manifest : JsonMap) : Prop :=
  ∀ path v, (newFromMap manifest).valueAt path = some v → (newFromMap request).valueAt path = some v

/-- In plain objects the entries are the leaves. -/
theorem extends_iff_flat {request manifest : JsonMap} (hr : PlainMap request)
    (hm : PlainMap manifest) : Extends request manifest ↔ FlatExtends request manifest := by
  constructor
  · intro h path v hv
    obtain ⟨segs, hleaf, hpath⟩ := (hm.valueAt_eq_some path v).1 hv
    exact (hr.valueAt_eq_some path v).2 ⟨segs, h segs v hleaf, hpath⟩
  · intro h segs v hleaf
    have hv := h _ v ((hm.valueAt_eq_some _ v).2 ⟨segs, hleaf, rfl⟩)
    obtain ⟨segs', hleaf', hpath⟩ := (hr.valueAt_eq_some _ v).1 hv
    rwa [dotted_injective ((hm.plain_obj hleaf).plainSegment hleaf)
      ((hr.plain_obj hleaf').plainSegment hleaf') hpath]

section

variable [Outside] {requestObject manifestObject : Option Bytes} {request manifest : JsonMap}
  (hrequest : Outside.jsonUnmarshal (requestObject.getD "") = .ok request)
  (hmanifest : Outside.jsonUnmarshal (manifestObject.getD "") = .ok manifest)

include hrequest hmanifest

/-- **What is answered**: whether the flattened manifest is part of the flattened request, unless
the two are equal. -/
theorem matchWithManifest_eq_ok_iff (matched : Bool) :
    matchWithManifest requestObject manifestObject = .ok matched ↔
      (∃ path, (newFromMap manifest).valueAt path ≠ (newFromMap request).valueAt path) ∧
        (matched = true ↔ FlatExtends request manifest) := by
  have hnone := findDiffBetweenNodes_eq_none_iff (newFromMap manifest) (newFromMap request)
    fun type => decide (type ∈ [ChangeType.update, .delete])
  rw [matchWithManifest, newFromBytes_of_jsonUnmarshal hrequest,
    newFromBytes_of_jsonUnmarshal hmanifest]
  simp only [nodeOrEmpty]
  cases hdiff : (newFromMap manifest).findUpdatedAndDeleted (newFromMap request) with
  | none =>
      have hsame := hnone.1 hdiff
      constructor
      · rintro ⟨⟩
      · rintro ⟨⟨path, hne⟩, _⟩
        exact absurd (hsame path) hne
  | some dr =>
      have hdiffer : ∃ path, (newFromMap manifest).valueAt path ≠
          (newFromMap request).valueAt path := by
        by_contra hsame
        rw [Node.findUpdatedAndDeleted, Node.diffSpecificType,
          hnone.2 fun path => not_not.1 (not_exists.1 hsame path)] at hdiff
        cases hdiff
      have hsize := findUpdatedAndDeleted_size hdiff
      rw [and_iff_right hdiffer, FlatExtends, ← hsize]
      change Except.ok (dr.size == 0) = Except.ok matched ↔ _
      rw [Except.ok.injEq, Bool.eq_iff_iff, beq_iff_eq]
      exact iff_comm

/-- **When a request that extends its manifest matches it**: if the flattened maps differ and say
the same about the inclusion as the leaves, which they do for plain objects. -/
theorem matchWithManifest_extends_iff :
    ((∃ matched, matchWithManifest requestObject manifestObject = .ok matched ∧
        (matched = true ↔ Extends request manifest)) ↔
      (∃ path, (newFromMap manifest).valueAt path ≠ (newFromMap request).valueAt path) ∧
        (Extends request manifest ↔ FlatExtends request manifest)) ∧
    (PlainMap request → PlainMap manifest →
      (Extends request manifest ↔ FlatExtends request manifest)) := by
  refine ⟨?_, extends_iff_flat⟩
  simp only [matchWithManifest_eq_ok_iff hrequest hmanifest]
  constructor
  · rintro ⟨matched, ⟨hdiffer, hflat⟩, hextends⟩
    exact ⟨hdiffer, hextends.symm.trans hflat⟩
  · rintro ⟨hdiffer, hiff⟩
    classical
    exact ⟨decide (FlatExtends request manifest), ⟨hdiffer, decide_eq_true_iff⟩,
      decide_eq_true_iff.trans hiff.symm⟩

end

/-- The data of a config map. -/
def dataOf (value : String) : String × Json := ("data", .scalar (.str value))

theorem matchWithManifest_extends_immutable :
    let manifest : JsonMap := [dataOf "x"]
    let request : JsonMap := [dataOf "x", ("immutable", .scalar (.bool true))]
    letI := Outside.decoding request manifest
    ∃ matched, matchWithManifest (some "old") (some "new") = .ok matched ∧
      (matched = true ↔ Extends request manifest) := by
  intro manifest request
  let _ := Outside.decoding request manifest
  have hdiffer : (newFromMap manifest).valueAt "immutable" ≠
      (newFromMap request).valueAt "immutable" := by decide +kernel
  have hextends : Extends request manifest := by
    intro segs v hleaf
    cases hleaf with
    | field hk hj => exact .field (List.mem_append_left [_] hk) hj
  have hflat : FlatExtends request manifest := by
    intro path v hv
    cases List.mem_singleton.1 (GoMap.mem_of_lastAt hv)
    decide +kernel
  exact (matchWithManifest_extends_iff rfl rfl).1.2 ⟨⟨_, hdiffer⟩, iff_of_true hextends hflat⟩

/-- An object that is just what its manifest says. -/
theorem matchWithManifest_equal :
    let object : JsonMap := [dataOf "x"]
    letI := Outside.decoding object object
    Extends object object ∧ matchWithManifest (some "old") (some "new") = .error .nilDeref :=
  ⟨fun _ _ h => h, by decide +kernel⟩

end Helm
end IntegrityShield
