/-
# The newest signature

`ResSigLoader.Load` of `shield/pkg/shield/resSigLoader.go` puts the signatures of the signature
namespace and of the namespace of a request into one list, and sorts it by the time in a label,
latest first.  `FindSignItem` takes the first item of the list with a document for the resource.

So the newest signature wins (`NewestWins`), however ties are broken, as long as the search gets
there: the items of a signature are pointers, and one that is null is followed.  A null item is
harmless exactly if a signature with a document and a later time comes first
(`newestWins_iff`).
-/

import IntegrityShield.Base.SortSlice
import IntegrityShield.Shield.Document
import IntegrityShield.Shield.Validation

namespace IntegrityShield
namespace Shield

open Common Apis

/-- The time of a signature, as `sortByTimestamp` reads it. -/
def timestamp (ss : ResourceSignature) : ℤ :=
  match ss.labels.lookup resSigLabelTime with
  | some time => (Strings.atoi time).1
  | none => 0

section Load

variable [SortSlice ResourceSignature]

/-- `sortByTimestamp`. -/
def sortByTimestamp (items : List ResourceSignature) : List ResourceSignature :=
  SortSlice.sortSlice (SortSlice.byKey timestamp) items

/-- What the cache and the API server have for one namespace: the cached text, the list that
`json.Unmarshal` reads in it, and what `List` returns. -/
structure ListAnswer where
  cached : String := ""
  unmarshalled : Except String (Option (List ResourceSignature)) := .error "unexpected end"
  listed : Except String (List ResourceSignature) := .ok []

/-- The list of the signature namespace; without a call of the API server it may be nil. -/
def ListAnswer.signatureList (answer : ListAnswer) (doK8sApiCall : Bool) :
    Except String (Option (List ResourceSignature)) :=
  if answer.cached = "" ∧ doK8sApiCall = true then answer.listed.map some
  else if answer.cached ≠ "" then answer.unmarshalled
  else .ok none

/-- The list of the namespace of the request: an empty cached text is read as well. -/
def ListAnswer.requestList (answer : ListAnswer) (doK8sApiCall : Bool) :
    Except String (Option (List ResourceSignature)) :=
  if answer.cached = "" ∧ doK8sApiCall = true then answer.listed.map some
  else answer.unmarshalled

/-- What `Load` makes of the two lists; a nil list has no items. -/
def loadedItems (list1 list2 : Option (List ResourceSignature)) : List (Option ResourceSignature) :=
  (sortByTimestamp (list1.getD [] ++ list2.getD [])).map some

/-- `ResSigLoader.Load`, to the new `Data`, without what it stores in the cache.  On an error the
data stay nil. -/
def ResSigLoader.load (signatures request : ListAnswer) (doK8sApiCall : Bool) :
    Option (List (Option ResourceSignature)) :=
  match signatures.signatureList doK8sApiCall, request.requestList doK8sApiCall with
  | .ok list1, .ok list2 => some (loadedItems list1 list2)
  | _, _ => none

end Load

section Search

variable [Outside]

/-- An item has a document for a resource. -/
def HasDocument (ref : ResourceRef) (data : List (Option SignItem)) : Prop :=
  ∃ si, some si ∈ data ∧ (findSingleYaml si.message ref).isSome = true

/-- The search comes to a null item: no item before it has a document. -/
def ComesToNull (ref : ResourceRef) (data : List (Option SignItem)) : Prop :=
  ∃ pre post, data = pre ++ none :: post ∧
    ∀ si, some si ∈ pre → findSingleYaml si.message ref = none

theorem hasDocument_cons (ref : ResourceRef) (si : SignItem) (rest : List (Option SignItem)) :
    HasDocument ref (some si :: rest) ↔
      (findSingleYaml si.message ref).isSome = true ∨ HasDocument ref rest := by
  simp only [HasDocument, List.mem_cons, Option.some.injEq, or_and_right, exists_or,
    exists_eq_left]

theorem comesToNull_cons (ref : ResourceRef) (si : SignItem) (rest : List (Option SignItem)) :
    ComesToNull ref (some si :: rest) ↔
      findSingleYaml si.message ref = none ∧ ComesToNull ref rest := by
  constructor
  · rintro ⟨pre, post, hdata, hpre⟩
    cases pre with
    | nil => cases hdata
    | cons item pre =>
        obtain ⟨rfl, rfl⟩ := List.cons.inj hdata
        exact ⟨hpre si List.mem_cons_self, pre, post, rfl,
          fun si' hsi' => hpre si' (List.mem_cons_of_mem _ hsi')⟩
  · rintro ⟨hsi, pre, post, rfl, hpre⟩
    refine ⟨some si :: pre, post, rfl, fun si' hsi' => ?_⟩
    rcases List.mem_cons.1 hsi' with heq | hsi'
    · rwa [Option.some.inj heq]
    · exact hpre si' hsi'

/-- **The search in one signature.** -/
theorem ResourceSignature.findSignItem_cases (ref : ResourceRef) (data : List (Option SignItem)) :
    (ResourceSignature.findSignItem ref data = .error .nilDeref ∧ ComesToNull ref data) ∨
    (ResourceSignature.findSignItem ref data = .ok none ∧ ¬ComesToNull ref data ∧
      ¬HasDocument ref data) ∨
    ∃ found, ResourceSignature.findSignItem ref data = .ok (some found) ∧
      ¬ComesToNull ref data ∧ HasDocument ref data := by
  induction data with
  | nil =>
      refine .inr (.inl ⟨rfl, ?_, ?_⟩)
      · rintro ⟨pre, post, hdata, _⟩
        exact absurd hdata (by simp)
      · rintro ⟨si, hsi, _⟩
        cases hsi
  | cons item rest ih =>
      cases item with
      | none => exact .inl ⟨rfl, [], rest, rfl, fun si hsi => absurd hsi List.not_mem_nil⟩
      | some si =>
          rw [comesToNull_cons, hasDocument_cons]
          cases hsi : findSingleYaml si.message ref with
          | some yamlBytes =>
              refine .inr (.inr ⟨(si, yamlBytes), ?_, by simp, .inl rfl⟩)
              simp only [ResourceSignature.findSignItem, Go.deref, Go.ok_bind, hsi]
              rfl
          | none =>
              have hrest : ResourceSignature.findSignItem ref (some si :: rest) =
                  ResourceSignature.findSignItem ref rest := by
                simp only [ResourceSignature.findSignItem, Go.deref, Go.ok_bind, hsi]
              simpa [hrest] using ih

/-- **The search through the signatures** stops at the first that has a document or comes to a
null item. -/
theorem findSignItem_cases (ref : ResourceRef) (sorted : List ResourceSignature) :
    (findSignItem ref (sorted.map some) = .ok none ∧
      ∀ ss ∈ sorted, ¬ComesToNull ref ss.data ∧ ¬HasDocument ref ss.data) ∨
    ∃ pre ss post, sorted = pre ++ ss :: post ∧
      (∀ ss' ∈ pre, ¬ComesToNull ref ss'.data ∧ ¬HasDocument ref ss'.data) ∧
      ((findSignItem ref (sorted.map some) = .error .nilDeref ∧ ComesToNull ref ss.data) ∨
        ∃ si yamlBytes,
          findSignItem ref (sorted.map some) = .ok (some (si, yamlBytes, ss.uid)) ∧
          ResourceSignature.findSignItem ref ss.data = .ok (some (si, yamlBytes))) := by
  induction sorted with
  | nil => exact .inl ⟨rfl, fun ss hss => absurd hss List.not_mem_nil⟩
  | cons ss rest ih =>
      have hstep : findSignItem ref ((ss :: rest).map some) =
          (ResourceSignature.findSignItem ref ss.data >>= fun found =>
            found.elim (findSignItem ref (rest.map some)) fun r => .ok (some (r.1, r.2, ss.uid))) := by
        refine congrArg (ResourceSignature.findSignItem ref ss.data >>= ·) (funext fun found => ?_)
        cases found <;> rfl
      rcases ResourceSignature.findSignItem_cases ref ss.data with
        ⟨hscan, hnull⟩ | ⟨hscan, hno⟩ | ⟨⟨si, yamlBytes⟩, hscan, _⟩
      · refine .inr ⟨[], ss, rest, rfl, fun ss' hss' => absurd hss' List.not_mem_nil, .inl ⟨?_, hnull⟩⟩
        rw [hstep, hscan]
        rfl
      · have hgoesOn : findSignItem ref ((ss :: rest).map some) =
            findSignItem ref (rest.map some) := by
          rw [hstep, hscan, Go.ok_bind, Option.elim_none]
        rw [hgoesOn]
        rcases ih with ⟨hnone, hrest⟩ | ⟨pre, ss', post, rfl, hpre, hhit⟩
        · exact .inl ⟨hnone, List.forall_mem_cons.2 ⟨hno, hrest⟩⟩
        · exact .inr ⟨ss :: pre, ss', post, rfl, List.forall_mem_cons.2 ⟨hno, hpre⟩, hhit⟩
      · refine .inr ⟨[], ss, rest, rfl, fun ss' hss' => absurd hss' List.not_mem_nil,
          .inr ⟨si, yamlBytes, ?_, hscan⟩⟩
        rw [hstep, hscan, Go.ok_bind, Option.elim_some]

/-- **The newest signature wins**: the search returns, it finds an item exactly if a signature has
one with a document, and the item is of a signature that is the latest of these. -/
def NewestWins (ref : ResourceRef) (items : List ResourceSignature)
    (sorted : List (Option ResourceSignature)) : Prop :=
  ∃ found, findSignItem ref sorted = .ok found ∧
    (found.isSome = true ↔ ∃ ss ∈ items, HasDocument ref ss.data) ∧
    ∀ si yamlBytes uid, found = some (si, yamlBytes, uid) →
      findSingleYaml si.message ref = some yamlBytes ∧
      ∃ ss ∈ items, some si ∈ ss.data ∧ ss.uid = uid ∧
        ∀ ss' ∈ items, HasDocument ref ss'.data → timestamp ss' ≤ timestamp ss

/-- Every null item that would be come to is behind a signature with a document. -/
def NullsAreBehind (ref : ResourceRef) (items : List ResourceSignature) : Prop :=
  ∀ ss ∈ items, ComesToNull ref ss.data →
    ∃ ss' ∈ items, HasDocument ref ss'.data ∧ ¬ComesToNull ref ss'.data ∧
      timestamp ss < timestamp ss'

theorem newestWins_of_nullsAreBehind [SortSlice ResourceSignature] {ref : ResourceRef}
    {items : List ResourceSignature} (h : NullsAreBehind ref items) :
    NewestWins ref items ((sortByTimestamp items).map some) := by
  have hmem : ∀ ss, ss ∈ sortByTimestamp items ↔ ss ∈ items :=
    fun ss => (SortSlice.perm _ items).mem_iff
  rcases findSignItem_cases ref (sortByTimestamp items) with
    ⟨hfind, hnone⟩ | ⟨pre, ss, post, hsplit, hpre, hhit⟩
  · refine ⟨none, hfind, iff_of_false Bool.false_ne_true ?_, fun si yamlBytes uid hno => ?_⟩
    · rintro ⟨ss, hss, hdocument⟩
      exact (hnone ss ((hmem ss).2 hss)).2 hdocument
    · cases hno
  have hss : ss ∈ items := (hmem ss).1 (hsplit ▸ List.mem_append_right _ List.mem_cons_self)
  -- a signature with a document is not before the one that the search stops at
  have hlatest : ∀ ss' ∈ items, HasDocument ref ss'.data → timestamp ss' ≤ timestamp ss :=
    fun ss' hss' hdocument =>
      SortSlice.key_le_of_first timestamp hsplit hss' fun hbefore => (hpre ss' hbefore).2 hdocument
  rcases hhit with ⟨_, hnull⟩ | ⟨si, yamlBytes, hfind, hscan⟩
  · obtain ⟨ss', hss', hdocument, _, hlt⟩ := h ss hss hnull
    exact absurd (hlatest ss' hss' hdocument) (not_le.2 hlt)
  · obtain ⟨hsi, hyaml⟩ := ResourceSignature.findSignItem_eq_some hscan
    have hdocument : HasDocument ref ss.data := ⟨si, hsi, by rw [hyaml]; rfl⟩
    refine ⟨_, hfind, iff_of_true rfl ⟨ss, hss, hdocument⟩, ?_⟩
    rintro si' yamlBytes' uid' heq
    cases heq
    exact ⟨hyaml, ss, hss, hsi, rfl, hlatest⟩

/-- A sort that puts null items first among equals comes to one that is not behind. -/
theorem nullsAreBehind_of_newestWins {ref : ResourceRef} {items : List ResourceSignature}
    (h : ∀ _ : SortSlice ResourceSignature, NewestWins ref items ((sortByTimestamp items).map some)) :
    NullsAreBehind ref items := by
  classical
  intro ss hss hnull
  by_contra hbehind
  simp only [not_exists, not_and, not_lt] at hbehind
  let sorter : SortSlice ResourceSignature :=
    SortSlice.preferring fun ss => decide (ComesToNull ref ss.data)
  obtain ⟨found, hfound, _⟩ := h sorter
  have hmem : ss ∈ sortByTimestamp items := (SortSlice.perm _ items).mem_iff.2 hss
  rcases findSignItem_cases ref (sortByTimestamp items) with
    ⟨_, hnone⟩ | ⟨pre, first, post, hsplit, hpre, ⟨hfind, _⟩ | ⟨si, yamlBytes, _, hscan⟩⟩
  · exact (hnone ss hmem).1 hnull
  · rw [hfind] at hfound
    cases hfound
  -- the search stops at a document, and the null item comes later
  rcases ResourceSignature.findSignItem_cases ref first.data with
    ⟨hscan', _⟩ | ⟨hscan', _⟩ | ⟨_, _, hnotnull, hdocument⟩
  · rw [hscan'] at hscan
    cases hscan
  · rw [hscan'] at hscan
    cases hscan
  have hfirst : first ∈ items :=
    (SortSlice.perm _ items).mem_iff.1 (hsplit ▸ List.mem_append_right _ List.mem_cons_self)
  rw [hsplit] at hmem
  rcases List.mem_append.1 hmem with hbefore | hmem
  · exact (hpre ss hbefore).1 hnull
  rcases List.mem_cons.1 hmem with rfl | hafter
  · exact hnotnull hnull
  obtain ⟨between, after, rfl⟩ := List.append_of_mem hafter
  have hsplit' : sorter.sortSlice (SortSlice.byKey timestamp) items =
      (pre ++ first :: between) ++ ss :: after := by
    rw [List.append_assoc]
    exact hsplit
  rcases SortSlice.lt_key_or_of_before timestamp hsplit' (decide_eq_true hnull)
    (List.mem_append_right _ List.mem_cons_self) with hlt | hnull'
  · exact absurd (hbehind first hfirst hdocument hnotnull) (not_le.2 hlt)
  · exact hnotnull (of_decide_eq_true hnull')

/-- **When the newest signature wins, however a sort breaks ties.** -/
theorem newestWins_iff {signatures request : ListAnswer} {doK8sApiCall : Bool}
    {list1 list2 : Option (List ResourceSignature)}
    (hsignatures : signatures.signatureList doK8sApiCall = .ok list1)
    (hrequest : request.requestList doK8sApiCall = .ok list2) (ref : ResourceRef) :
    (∀ _ : SortSlice ResourceSignature,
      ∃ data, ResSigLoader.load signatures request doK8sApiCall = some data ∧
        NewestWins ref (list1.getD [] ++ list2.getD []) data) ↔
      NullsAreBehind ref (list1.getD [] ++ list2.getD []) := by
  have hload : ∀ _ : SortSlice ResourceSignature,
      ResSigLoader.load signatures request doK8sApiCall = some (loadedItems list1 list2) := by
    intro _
    rw [ResSigLoader.load, hsignatures, hrequest]
  constructor
  · intro h
    refine nullsAreBehind_of_newestWins fun sorter => ?_
    obtain ⟨data, hdata, hwins⟩ := h sorter
    obtain rfl := Option.some.inj ((hload sorter).symm.trans hdata)
    exact hwins
  · intro h sorter
    exact ⟨_, hload sorter, newestWins_of_nullsAreBehind h⟩

end Search

/-- Two signatures of one resource, the newer one in the namespace of the request. -/
theorem newestWins_two :
    let older : ResourceSignature := { uid := "a", data := [some {}] }
    let newer : ResourceSignature :=
      { uid := "b", labels := GoMap.writes ∅ [(resSigLabelTime, "1600000000")], data := [some {}] }
    let ref : ResourceRef := ⟨"cm", "ns", "ConfigMap", "v1"⟩
    letI := Outside.oneDocument ref
    ∀ _ : SortSlice ResourceSignature,
      ∃ data, ResSigLoader.load { listed := .ok [older] } { listed := .ok [newer] } true = some data ∧
        NewestWins ref [older, newer] data := by
  intro older newer ref
  let _ := Outside.oneDocument ref
  have hnull : ∀ ss ∈ [older, newer], none ∉ ss.data := by
    simp only [List.forall_mem_cons]
    exact ⟨by simp [older], by simp [newer], by simp⟩
  refine (@newestWins_iff _ _ _ _ (some [older]) (some [newer]) rfl rfl ref).2 ?_
  rintro ss hss ⟨pre, post, hdata, _⟩
  exact absurd (hdata ▸ List.mem_append_right _ List.mem_cons_self) (hnull ss hss)

/-- A signature with a null item before the item for the resource: the search ends the check. -/
theorem findSignItem_null_first :
    letI : SortSlice ResourceSignature := SortSlice.preferring fun _ => false
    let ref : ResourceRef := ⟨"cm", "ns", "ConfigMap", "v1"⟩
    let ss : ResourceSignature := { data := [none, some { message := "" }] }
    letI := Outside.oneDocument ref
    HasDocument ref ss.data ∧
      findSignItem ref (loadedItems (some [ss]) none) = .error .nilDeref := by
  let _ : SortSlice ResourceSignature := SortSlice.preferring fun _ => false
  intro ref ss
  let _ := Outside.oneDocument ref
  constructor
  · refine ⟨{ message := "" }, List.mem_cons_of_mem _ List.mem_cons_self, ?_⟩
    rw [findSingleYaml_oneDocument (by decide +kernel) (by decide +kernel) (by decide +kernel)
      (.inl (by decide +kernel))]
    rfl
  · have hsorted : sortByTimestamp [ss] = [ss] := List.perm_singleton.1 (SortSlice.perm _ [ss])
    rw [loadedItems, Option.getD_some, Option.getD_none, List.append_nil, hsorted]
    rfl

end Shield
end IntegrityShield
