/-
# The rule table

`shield/pkg/shield/ruleTable.go`: the profiles, each merged with the common
profile and with the namespaces it targets, and the question whether they
protect a request.
-/

import IntegrityShield.Apis.ResourceSigningProfile

namespace IntegrityShield
namespace Shield

open Common Apis

/-- `RuleItem`. -/
structure RuleItem where
  profile : ResourceSigningProfile
  targetNamespaces : List String

/-- `RuleTable`. -/
structure RuleTable where
  items : List RuleItem
  namespaces : List String
  shieldNamespace : String

/-- `matchNamespaceListWithSelector`. -/
def matchNamespaceListWithSelector (namespaces : List Namespace) (nsSelector : NamespaceSelector) :
    List String :=
  (namespaces.filter nsSelector.matchNamespace).map Namespace.name

/-- The common profile as a profile that `Merge` can append. -/
def commonProfileRSP (commonProfile : Option CommonProfile) : ResourceSigningProfile :=
  match commonProfile with
  | none => {}
  | some c => { spec := { ignoreRules := c.ignoreRules, ignoreAttrs := c.ignoreAttrs } }

/-- The namespaces a profile targets: its own, or in the shield's namespace
those its selector matches. -/
def targetNamespaces (p : ResourceSigningProfile) (namespaces : List Namespace)
    (shieldNamespace : String) : List String :=
  if p.namespace = shieldNamespace then
    match p.spec.targetNamespaceSelector with
    | some nsSelector => matchNamespaceListWithSelector namespaces nsSelector
    | none => [p.namespace]
  else [p.namespace]

/-- The row of one profile. -/
def ruleItem (namespaces : List Namespace) (commonProfile : Option CommonProfile)
    (shieldNamespace : String) (p : ResourceSigningProfile) : RuleItem :=
  ⟨p.merge (commonProfileRSP commonProfile), targetNamespaces p namespaces shieldNamespace⟩

/-- One round of the loop of `NewRuleTable`. -/
def RuleTable.addProfile (namespaces : List Namespace) (commonProfile : Option CommonProfile)
    (shieldNamespace : String) (table : RuleTable) (p : ResourceSigningProfile) : RuleTable :=
  let item := ruleItem namespaces commonProfile shieldNamespace p
  { table with
    items := table.items ++ [item]
    namespaces := getUnionOfArrays table.namespaces item.targetNamespaces }

/-- `NewRuleTable`. -/
def newRuleTable (profiles : List ResourceSigningProfile) (namespaces : List Namespace)
    (commonProfile : Option CommonProfile) (shieldNamespace : String) : RuleTable :=
  profiles.foldl (RuleTable.addProfile namespaces commonProfile shieldNamespace)
    ⟨[], [], shieldNamespace⟩

section

variable (namespaces : List Namespace) (commonProfile : Option CommonProfile)
  (shieldNamespace : String)

theorem items_foldl_addProfile (profiles : List ResourceSigningProfile) (t : RuleTable) :
    (profiles.foldl (RuleTable.addProfile namespaces commonProfile shieldNamespace) t).items =
      t.items ++ profiles.map (ruleItem namespaces commonProfile shieldNamespace) := by
  induction profiles generalizing t with
  | nil => exact (List.append_nil _).symm
  | cons p rest ih =>
      rw [List.foldl_cons, ih, List.map_cons, RuleTable.addProfile, List.append_assoc,
        List.singleton_append]

theorem shieldNamespace_foldl_addProfile (profiles : List ResourceSigningProfile) (t : RuleTable) :
    (profiles.foldl (RuleTable.addProfile namespaces commonProfile shieldNamespace)
      t).shieldNamespace = t.shieldNamespace := by
  induction profiles generalizing t with
  | nil => rfl
  | cons p rest ih => rw [List.foldl_cons, ih, RuleTable.addProfile]

theorem mem_namespaces_foldl_addProfile (profiles : List ResourceSigningProfile) (t : RuleTable)
    (ns : String) :
    ns ∈ (profiles.foldl (RuleTable.addProfile namespaces commonProfile shieldNamespace)
        t).namespaces ↔
      ns ∈ t.namespaces ∨ ∃ p ∈ profiles, ns ∈ targetNamespaces p namespaces shieldNamespace := by
  induction profiles generalizing t with
  | nil => simp
  | cons p rest ih =>
      rw [List.foldl_cons, ih, RuleTable.addProfile, mem_getUnionOfArrays, ruleItem]
      simp only [List.exists_mem_cons_iff, or_assoc]

/-- The table has one row for each profile, in their order. -/
theorem items_newRuleTable (profiles : List ResourceSigningProfile) :
    (newRuleTable profiles namespaces commonProfile shieldNamespace).items =
      profiles.map (ruleItem namespaces commonProfile shieldNamespace) := by
  rw [newRuleTable, items_foldl_addProfile, List.nil_append]

theorem shieldNamespace_newRuleTable (profiles : List ResourceSigningProfile) :
    (newRuleTable profiles namespaces commonProfile shieldNamespace).shieldNamespace =
      shieldNamespace := by
  rw [newRuleTable, shieldNamespace_foldl_addProfile]

/-- The namespaces of the table are the targets of its profiles. -/
theorem mem_namespaces_newRuleTable (profiles : List ResourceSigningProfile) (ns : String) :
    ns ∈ (newRuleTable profiles namespaces commonProfile shieldNamespace).namespaces ↔
      ∃ p ∈ profiles, ns ∈ targetNamespaces p namespaces shieldNamespace := by
  rw [newRuleTable, mem_namespaces_foldl_addProfile]
  simp

end

/-- Some profile of the shield's namespace selects one of the namespaces. -/
def SelectsOneOf (profiles : List ResourceSigningProfile) (namespaces : List Namespace)
    (shieldNamespace : String) : Prop :=
  ∃ p ∈ profiles, p.namespace = shieldNamespace ∧
    ∃ nsSelector, p.spec.targetNamespaceSelector = some nsSelector ∧
      ∃ ns ∈ namespaces, nsSelector.matchNamespace ns = true

/-- A profile that selects none of the namespaces has the targets it has without
them. -/
theorem targetNamespaces_of_not_selects {p : ResourceSigningProfile} {namespaces : List Namespace}
    {shieldNamespace : String} (h : ¬SelectsOneOf [p] namespaces shieldNamespace) :
    targetNamespaces p namespaces shieldNamespace = targetNamespaces p [] shieldNamespace := by
  unfold targetNamespaces
  split_ifs with hns
  · cases hsel : p.spec.targetNamespaceSelector with
    | none => rfl
    | some nsSelector =>
        have hfilter : namespaces.filter nsSelector.matchNamespace = [] := by
          rw [List.filter_eq_nil_iff]
          exact fun ns hmem hmatch =>
            h ⟨p, List.mem_singleton_self p, hns, nsSelector, hsel, ns, hmem, hmatch⟩
        simp only [matchNamespaceListWithSelector, hfilter]
        rfl
  · rfl

/-- **The namespaces matter to the table exactly if a selector matches one.** -/
theorem newRuleTable_eq_iff (profiles : List ResourceSigningProfile) (namespaces : List Namespace)
    (commonProfile : Option CommonProfile) (shieldNamespace : String) :
    newRuleTable profiles namespaces commonProfile shieldNamespace =
        newRuleTable profiles [] commonProfile shieldNamespace ↔
      ¬SelectsOneOf profiles namespaces shieldNamespace := by
  constructor
  · rintro heq ⟨p, hp, hns, nsSelector, hsel, ns, hmem, hmatch⟩
    have hitems := congrArg RuleTable.items heq
    rw [items_newRuleTable, items_newRuleTable, List.map_inj_left] at hitems
    have htargets := congrArg RuleItem.targetNamespaces (hitems p hp)
    have hin : ns.name ∈ targetNamespaces p namespaces shieldNamespace := by
      simp only [targetNamespaces, hns, if_true, hsel, matchNamespaceListWithSelector]
      exact List.mem_map_of_mem (List.mem_filter.2 ⟨hmem, hmatch⟩)
    have hnone : targetNamespaces p [] shieldNamespace = [] := by
      simp only [targetNamespaces, hns, if_true, hsel]
      rfl
    simp only [ruleItem] at htargets
    rw [htargets, hnone] at hin
    cases hin
  · intro h
    refine List.foldl_ext _ _ _ fun table p hp => ?_
    have hp' : ¬SelectsOneOf [p] namespaces shieldNamespace := by
      rintro ⟨q, hq, hrest⟩
      exact h ⟨p, hp, List.mem_singleton.1 hq ▸ hrest⟩
    simp only [RuleTable.addProfile, ruleItem, targetNamespaces_of_not_selects hp']

namespace RuleTable

/-- `RuleTable.IsEmpty`. -/
def isEmpty (self : RuleTable) : Bool := self.items.length == 0

/-- `RuleTable.IsTargetEmpty`. -/
def isTargetEmpty (self : RuleTable) : Bool :=
  (self.items.map fun rl => rl.targetNamespaces.length).sum == 0

theorem isEmpty_newRuleTable (profiles : List ResourceSigningProfile) (namespaces : List Namespace)
    (commonProfile : Option CommonProfile) (shieldNamespace : String) :
    (newRuleTable profiles namespaces commonProfile shieldNamespace).isEmpty = false ↔
      profiles ≠ [] := by
  rw [isEmpty, items_newRuleTable, List.length_map, beq_eq_false_iff_ne, ne_eq,
    List.length_eq_zero_iff]

theorem isTargetEmpty_newRuleTable (profiles : List ResourceSigningProfile)
    (namespaces : List Namespace) (commonProfile : Option CommonProfile)
    (shieldNamespace : String) :
    (newRuleTable profiles namespaces commonProfile shieldNamespace).isTargetEmpty = false ↔
      ∃ p ∈ profiles, targetNamespaces p namespaces shieldNamespace ≠ [] := by
  rw [isTargetEmpty, items_newRuleTable, List.map_map, beq_eq_false_iff_ne, ne_eq,
    List.sum_eq_zero_iff_forall_eq_nat]
  simp [ruleItem]

/-- Namespaces only add targets. -/
theorem isTargetEmpty_mono {profiles : List ResourceSigningProfile}
    {commonProfile : Option CommonProfile} {shieldNamespace : String}
    (h : (newRuleTable profiles [] commonProfile shieldNamespace).isTargetEmpty = false)
    (namespaces : List Namespace) :
    (newRuleTable profiles namespaces commonProfile shieldNamespace).isTargetEmpty = false := by
  rw [isTargetEmpty_newRuleTable] at h ⊢
  obtain ⟨p, hp, hne⟩ := h
  refine ⟨p, hp, fun hnil => hne ?_⟩
  unfold targetNamespaces at hnil ⊢
  split_ifs at hnil ⊢ with hns
  cases hsel : p.spec.targetNamespaceSelector with
  | none => simp [hsel] at hnil
  | some nsSelector => rfl

/-- `RuleTable.CheckIfTargetNamespace`. -/
def checkIfTargetNamespace (self : RuleTable) (nsName : String) : Bool :=
  if nsName = "" then true else exactMatchWithPatternArray nsName self.namespaces

/-- The results of `CheckIfProtected`. -/
structure Protection where
  isProtected : Bool := false
  ignoreMatched : Bool := false
  matchedProfiles : List ResourceSigningProfile := []

/-- One round of the loop of `CheckIfProtected`. -/
def checkItem (reqFields : ReqFields) (shieldNamespace : String) (acc : Protection)
    (item : RuleItem) : Go Protection :=
  if reqFields.get "ResourceScope" = "Namespaced" ∧
      exactMatchWithPatternArray (reqFields.get "Namespace") item.targetNamespaces = false then
    .ok acc
  else do
    let (tmpProtected, matchedRule) ← item.profile.matchRequest reqFields shieldNamespace
    if tmpProtected then
      return { acc with
        isProtected := true
        matchedProfiles := acc.matchedProfiles ++ [item.profile] }
    else if matchedRule ≠ none then return { acc with ignoreMatched := true }
    else return acc

/-- `RuleTable.CheckIfProtected`. -/
def checkIfProtected (self : RuleTable) (reqFields : ReqFields) : Go Protection :=
  self.items.foldlM (checkItem reqFields self.shieldNamespace) {}

/-- A request is protected if some profile protects it. -/
theorem checkIfProtected_isProtected {self : RuleTable} {reqFields : ReqFields} {p : Protection}
    (h : self.checkIfProtected reqFields = .ok p) :
    p.isProtected = true ↔ p.matchedProfiles ≠ [] := by
  refine Go.foldlM_invariant
    (fun acc : Protection => acc.isProtected = true ↔ acc.matchedProfiles ≠ []) ?_ (by simp) h
  intro acc item acc' hacc hstep
  rw [checkItem] at hstep
  split_ifs at hstep with hskip
  · obtain rfl := Except.ok.inj hstep
    exact hacc
  · obtain ⟨⟨tmpProtected, matchedRule⟩, _, hstep⟩ := Go.bind_eq_ok.1 hstep
    dsimp only at hstep
    split_ifs at hstep with hprot hrule
    · obtain rfl := Except.ok.inj hstep
      simp
    · obtain rfl := Except.ok.inj hstep
      exact hacc
    · obtain rfl := Except.ok.inj hstep
      exact hacc

/-- A row with such targets is asked about a request. -/
def Asked (reqFields : ReqFields) (targetNamespaces : List String) : Prop :=
  reqFields.get "ResourceScope" = "Namespaced" → reqFields.get "Namespace" ∈ targetNamespaces

/-- One round of the loop: a row that is asked may protect the request, and what was protected
stays so. -/
theorem checkItem_unprotected_iff (reqFields : ReqFields) (shieldNamespace : String)
    (acc : Protection) (item : RuleItem) :
    (∃ acc', checkItem reqFields shieldNamespace acc item = .ok acc' ∧
        acc'.isProtected = false) ↔
      acc.isProtected = false ∧ (Asked reqFields item.targetNamespaces →
        ∃ rule, item.profile.matchRequest reqFields shieldNamespace = .ok (false, rule)) := by
  have hasked : (reqFields.get "ResourceScope" = "Namespaced" ∧ exactMatchWithPatternArray
      (reqFields.get "Namespace") item.targetNamespaces = false) ↔
      ¬Asked reqFields item.targetNamespaces := by
    rw [← Bool.not_eq_true, exactMatchWithPatternArray_iff, Asked, Classical.not_imp]
  rw [checkItem]
  split_ifs with hskip
  · have hno := hasked.1 hskip
    constructor
    · rintro ⟨acc', h, hprotected⟩
      obtain rfl := Except.ok.inj h
      exact ⟨hprotected, fun h => absurd h hno⟩
    · exact fun h => ⟨acc, rfl, h.1⟩
  rw [imp_iff_right (not_not.1 (mt hasked.2 hskip))]
  cases hrow : item.profile.matchRequest reqFields shieldNamespace with
  | error e =>
      constructor
      · rintro ⟨_, h, _⟩
        cases h
      · rintro ⟨_, _, h⟩
        cases h
  | ok r =>
      obtain ⟨matched, rule⟩ := r
      cases matched with
      | true =>
          constructor
          · rintro ⟨_, h, hprotected⟩
            obtain rfl := Except.ok.inj h
            cases hprotected
          · rintro ⟨_, _, h⟩
            cases h
      | false =>
          have hstep : ∃ acc', (if rule ≠ none then pure { acc with ignoreMatched := true }
              else pure acc : Go Protection) = .ok acc' ∧
              acc'.isProtected = acc.isProtected := by
            split_ifs
            · exact ⟨_, rfl, rfl⟩
            · exact ⟨_, rfl, rfl⟩
          obtain ⟨acc', hacc', hsame⟩ := hstep
          constructor
          · rintro ⟨acc'', h, hprotected⟩
            obtain rfl := Except.ok.inj (hacc'.symm.trans h)
            exact ⟨hsame ▸ hprotected, rule, rfl⟩
          · rintro ⟨hprotected, _⟩
            exact ⟨acc', hacc', hsame.trans hprotected⟩

/-- The loop finds nothing if every row that is asked says so. -/
theorem foldlM_checkItem_unprotected_iff (reqFields : ReqFields) (shieldNamespace : String)
    (items : List RuleItem) (acc : Protection) :
    (∃ res, items.foldlM (checkItem reqFields shieldNamespace) acc = .ok res ∧
        res.isProtected = false) ↔
      acc.isProtected = false ∧ ∀ item ∈ items, Asked reqFields item.targetNamespaces →
        ∃ rule, item.profile.matchRequest reqFields shieldNamespace = .ok (false, rule) := by
  induction items generalizing acc with
  | nil =>
      constructor
      · rintro ⟨res, h, hprotected⟩
        obtain rfl := Except.ok.inj h
        exact ⟨hprotected, fun _ h => absurd h List.not_mem_nil⟩
      · exact fun h => ⟨acc, rfl, h.1⟩
  | cons item rest ih =>
      have hstep := checkItem_unprotected_iff reqFields shieldNamespace acc item
      rw [List.forall_mem_cons, ← and_assoc, ← hstep]
      constructor
      · rintro ⟨res, h, hprotected⟩
        rw [List.foldlM_cons, Go.bind_eq_ok] at h
        obtain ⟨acc', hacc', h⟩ := h
        obtain ⟨hunprotected, hrest⟩ := (ih acc').1 ⟨res, h, hprotected⟩
        exact ⟨⟨acc', hacc', hunprotected⟩, hrest⟩
      · rintro ⟨⟨acc', hacc', hunprotected⟩, hrest⟩
        obtain ⟨res, h, hprotected⟩ := (ih acc').2 ⟨hunprotected, hrest⟩
        refine ⟨res, ?_, hprotected⟩
        rw [List.foldlM_cons, hacc']
        exact h

/-- **What is not protected**: every profile that is asked, merged with the common one, does not
protect it. -/
theorem checkIfProtected_unprotected_iff (profiles : List ResourceSigningProfile)
    (namespaces : List Namespace) (commonProfile : Option CommonProfile)
    (shieldNamespace : String) (reqFields : ReqFields) :
    (∃ res, (newRuleTable profiles namespaces commonProfile shieldNamespace).checkIfProtected
        reqFields = .ok res ∧ res.isProtected = false) ↔
      ∀ p ∈ profiles, Asked reqFields (targetNamespaces p namespaces shieldNamespace) →
        ∃ rule, (p.merge (commonProfileRSP commonProfile)).matchRequest reqFields
          shieldNamespace = .ok (false, rule) := by
  rw [checkIfProtected, items_newRuleTable, shieldNamespace_newRuleTable,
    foldlM_checkItem_unprotected_iff, List.forall_mem_map]
  exact and_iff_right rfl

end RuleTable

end Shield
end IntegrityShield
