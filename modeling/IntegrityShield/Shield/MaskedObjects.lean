/-
# Masked objects on their way to the comparison

`ConcreteMutationChecker.Eval` of `shield/pkg/shield/utilMutation.go` masks the old and the new
object, turns both into plain maps (`ToMap`), and `GetMAResult` builds trees from the maps again
before it compares them.  Nothing gets lost on the way (`masked_tree_survives`): a tree built from
a JSON object and masked is the tree built from its plain map, nulls and empty maps and lists
included; in memory the tree that was masked is what it was; and so the check compares the masked
objects.
-/

import IntegrityShield.Mapnode.References
import IntegrityShield.Shield.Mutation

namespace IntegrityShield
namespace Mapnode

section

variable [Regexp.UnicodeTables]

mutual

/-- Masking does not add nodes. -/
theorem nodes_recursiveMask_le (keys : List String) (path : String) : ∀ t : Node,
    (t.recursiveMask keys path).nodes ≤ t.nodes
  | .null => le_rfl
  | .value _ => le_rfl
  | .map children => by
      rw [Node.recursiveMask, Node.nodes, Node.nodes]
      exact Nat.add_le_add_left (fieldNodes_maskFields_le keys path children) 1
  | .slice children => by
      rw [Node.recursiveMask, Node.nodes, Node.nodes]
      exact Nat.add_le_add_left (elemNodes_maskElems_le keys path 0 children) 1

theorem fieldNodes_maskFields_le (keys : List String) (path : String) :
    ∀ fs : List (String × Node), fieldNodes (maskFields keys path fs) ≤ fieldNodes fs
  | [] => le_rfl
  | (k, v) :: rest => by
      have hv := nodes_recursiveMask_le keys (childKey path k) v
      have hrest := fieldNodes_maskFields_le keys path rest
      rw [maskFields, fieldNodes]
      split_ifs
      · omega
      · rw [fieldNodes]
        omega

theorem elemNodes_maskElems_le (keys : List String) (path : String) :
    ∀ (i : ℕ) (ns : List Node), elemNodes (maskElems keys path i ns) ≤ elemNodes ns
  | _, [] => le_rfl
  | i, v :: rest => by
      have hv := nodes_recursiveMask_le keys (childKey path (Strings.itoa i)) v
      have hrest := elemNodes_maskElems_le keys path (i + 1) rest
      rw [maskElems, elemNodes]
      split_ifs
      · omega
      · rw [elemNodes]
        omega

end

/-- A masked object is a map with at most the nodes of the object. -/
theorem mask_newFromMap {o : JsonMap} {keys keys' : List String} {masked : Node}
    (h : (newFromMap o).mask keys = .ok (masked, keys')) :
    newFromMap masked.toMap = masked ∧ masked.nodes ≤ (newFromMap o).nodes := by
  rw [Node.mask, Go.bind_eq_ok] at h
  obtain ⟨⟨validKeys, _⟩, _, hreturn⟩ := h
  obtain ⟨rfl, _⟩ := Prod.mk.inj (Except.ok.inj hreturn)
  refine ⟨?_, nodes_recursiveMask_le validKeys "" _⟩
  have hmap : newFromMap o = .map (newFields o) := by rw [newFromMap, newNode]
  rw [hmap, recursiveMask_map, newFromMap_toMap]

end

end Mapnode

namespace Shield

open Common Apis Mapnode

section Check

variable [Outside]

/-- What `GetMAResult` does with the two trees it has built. -/
def compareObjects (reqc : ReqContext) (oldObject newObject : Node) (rules : List AttrsPattern)
    (excludeDiffValue : Bool) : Go MAResult := do
  let allMaskKeys ← generateMaskKeys rules (maskKeyFields reqc)
  let (filtered, unfiltered, matchedKeys) := match oldObject.diff newObject with
    | some dr => dr.filter allMaskKeys
    | none => ({}, {}, [])
  let show_ := fun dr => if excludeDiffValue then diffKeyString dr else diffString dr
  return {
    isMutated := decide (unfiltered.size ≠ 0)
    checked := true
    diff := show_ unfiltered
    filtered := show_ filtered
    matchedKeys := matchedKeys
    msg := mutationMessage reqc.name unfiltered.items }

theorem getMAResult_eq (reqc : ReqContext) (oldObj newObj : JsonMap) (rules : List AttrsPattern)
    (excludeDiffValue : Bool) :
    getMAResult reqc oldObj newObj rules excludeDiffValue =
      compareObjects reqc (newFromMap oldObj) (newFromMap newObj) rules excludeDiffValue :=
  rfl

/-- The check of a request with both objects compares them as they were masked. -/
theorem mutationEval_compares {reqc : ReqContext} {old new : JsonMap}
    (h : HasObjects reqc old new) (signingProfile : ResourceSigningProfile)
    {oldMasked newMasked : Node} {mask mask' : List String}
    (hold : (newFromMap old).mask mutationMask = .ok (oldMasked, mask))
    (hnew : (newFromMap new).mask mask = .ok (newMasked, mask')) :
    mutationEval reqc signingProfile = do
      let ignoreAttrsList ← signingProfile.ignoreAttrs reqc.map
      let mr ← compareObjects reqc oldMasked newMasked ignoreAttrsList reqc.excludeDiffValue
      return {
        isMutated := mr.isMutated
        diff := mr.diff
        filtered := mr.filtered
        checked := mr.checked
        error := some { reason := mr.msg } } := by
  rw [mutationEval, if_neg h.oldRaw, newFromBytes_of_jsonUnmarshal h.oldObject]
  simp only [hold, Go.ok_bind]
  rw [if_neg h.newRaw, newFromBytes_of_jsonUnmarshal h.newObject]
  simp only [hnew, Go.ok_bind, getMAResult_eq, (mask_newFromMap hold).1, (mask_newFromMap hnew).1]

/-- **Masked trees survive the conversion to maps.**  Where `Mask` of a tree built from an object
returns, the tree built from the plain map of the result is the result; in any memory the call
leaves the tree it is made on as it was, and so does what follows; and the mutation check compares
the masked objects. -/
theorem masked_tree_survives (o : JsonMap) (keys : List String) {masked : Node}
    {keys' : List String} (hmask : (newFromMap o).mask keys = .ok (masked, keys')) :
    newFromMap masked.toMap = masked ∧
    (∀ (mem : Memory) (fuel : ℕ), (newFromMap o).nodes ≤ fuel →
      ∃ mem₁ root mem₂ n, newFromMapAt o mem = (mem₁, root) ∧
        mem₁.Holds root (newFromMap o) ∧
        maskAt fuel mem₁ root keys = .ok (mem₂, n, keys') ∧
        mem₂.Holds n masked ∧ mem₂.Holds root (newFromMap o) ∧
        ∃ obj mem₃ n', toMapAt fuel mem₂ n = .ok obj ∧ newFromMapAt obj mem₂ = (mem₃, n') ∧
          mem₃.Holds n' masked ∧ mem₃.Holds root (newFromMap o)) ∧
    ∀ (reqc : ReqContext) (signingProfile : ResourceSigningProfile) (old new : JsonMap),
      HasObjects reqc old new → ∀ oldMasked mask newMasked mask',
        (newFromMap old).mask mutationMask = .ok (oldMasked, mask) →
        (newFromMap new).mask mask = .ok (newMasked, mask') →
          mutationEval reqc signingProfile = do
            let ignoreAttrsList ← signingProfile.ignoreAttrs reqc.map
            let mr ← compareObjects reqc oldMasked newMasked ignoreAttrsList reqc.excludeDiffValue
            return {
              isMutated := mr.isMutated
              diff := mr.diff
              filtered := mr.filtered
              checked := mr.checked
              error := some { reason := mr.msg } } := by
  obtain ⟨hrebuilt, hnodes⟩ := mask_newFromMap hmask
  refine ⟨hrebuilt, fun mem fuel hfuel => ?_,
    fun reqc signingProfile old new h _ _ _ _ hold hnew =>
      mutationEval_compares h signingProfile hold hnew⟩
  obtain ⟨_, hroot⟩ := newNodeAt_spec (.obj o) mem
  obtain ⟨mem₂, n, hmaskAt, hmasked, hkept⟩ := maskAt_spec hroot hfuel hmask
  have hread := treeAt_of_holds hmasked (hnodes.trans hfuel)
  obtain ⟨hgrows, hagain⟩ := newNodeAt_spec (.obj masked.toMap) mem₂
  rw [show newNode (.obj masked.toMap) = masked from hrebuilt] at hagain
  refine ⟨_, _, mem₂, n, rfl, hroot, hmaskAt, hmasked, hkept _ _ hroot, masked.toMap, _, _, ?_, rfl,
    hagain, (hkept _ _ hroot).mono hgrows⟩
  rw [toMapAt, hread]
  rfl

end Check

/-- An object with a null, an empty map and an empty list, masked by one of its keys. -/
theorem masked_tree_survives_status :
    letI := Outside.silent
    let o : JsonMap := [("data", .null), ("labels", .obj []), ("args", .arr [.null, .arr []]),
      ("status", .scalar (.bool true))]
    let masked : Node := .map [("data", .null), ("labels", .map []),
      ("args", .slice [.null, .slice []])]
    (newFromMap o).mask ["status"] = .ok (masked, ["status"]) ∧
      newFromMap masked.toMap = masked := by
  intro o masked
  let _ := Outside.silent
  have hmask : (newFromMap o).mask ["status"] = .ok (masked, ["status"]) := by
    rw [mask_eq_recursiveMask _ (by decide +kernel)]
    rfl
  exact ⟨hmask, (masked_tree_survives o ["status"] hmask).1⟩

end Shield
end IntegrityShield
