/-
# The data of a run

`shield/pkg/shield/runData.go` and the loaders it reads from (`rspLoader.go`,
`namespaceLoader.go`, `sigConfLoader.go`, `resSigLoader.go`).

A loader looks into a cache that all requests share, and lists the resources
from the API server if nothing is cached there and it may.  What it is answered
is an argument here (`Answer`), a new one for every call, since other requests
change the cache in between.  A cached list is kept as the list, not as its JSON
text.  A loader keeps what it has loaded, and loads again only while that is
empty; a table is installed only if it has a target.
-/

import IntegrityShield.Shield.Config
import IntegrityShield.Shield.Message
import IntegrityShield.Shield.RuleTable

namespace IntegrityShield
namespace Shield

open Common Apis

/-- What a loader is answered: the cached list, if there is one, and the outcome
of a list call. -/
structure Answer (α : Type) where
  cached : Option (List α) := none
  listed : Except String (List α) := .ok []

namespace Answer

variable {α : Type}

/-- `RSPLoader.Load` and `NamespaceLoader.Load`: the data it leaves, and whether
it was listed anew. -/
def load (answer : Answer α) (doK8sApiCall : Bool) (data : List α) : List α × Bool :=
  match answer.cached with
  | some list => (list, false)
  | none =>
      if doK8sApiCall then
        match answer.listed with
        | .ok list => (list, true)
        | .error _ => (data, false)
      else ([], false)

/-- `RSPLoader.GetData` and `NamespaceLoader.GetData`. -/
def getData (answer : Answer α) (doK8sApiCall : Bool) (data : List α) : List α × Bool :=
  if data.length = 0 then answer.load doK8sApiCall data else (data, false)

end Answer

/-- The answers of the two loaders of the rule table. -/
structure RuleAnswers where
  rsp : Answer ResourceSigningProfile := {}
  ns : Answer Namespace := {}

/-- `RunData`, with the data of the two loaders of the rule table.  The other two
loaders hold what is in `signerConfig` and `resSigList`. -/
structure RunData where
  rspList : List ResourceSigningProfile := []
  nsList : List Namespace := []
  signerConfig : Option SignerConfigResource := none
  resSigList : Option (List (Option ResourceSignature)) := none
  rspData : List ResourceSigningProfile := []
  nsData : List Namespace := []
  commonProfile : Option CommonProfile := none
  ruleTable : Option RuleTable := none

namespace RunData

/-- `SignerConfigLoader.Load`: the first of the listed resources, or an empty
one. -/
def loadSignerConfig (answer : Answer SignerConfigResource) : Option SignerConfigResource :=
  match answer.cached, answer.listed with
  | some list, _ => some (list.head?.getD {})
  | none, .ok list => some (list.head?.getD {})
  | none, .error _ => none

/-- `RunData.GetSignerConfig`. -/
def getSignerConfig (self : RunData) (answer : Answer SignerConfigResource) : RunData :=
  { self with signerConfig := self.signerConfig.or (loadSignerConfig answer) }

/-- `RunData.GetResSigList`, given what `ResSigLoader.Load` leaves. -/
def getResSigList (self : RunData) (loaded : Option (List (Option ResourceSignature))) : RunData :=
  { self with resSigList := self.resSigList.or loaded }

/-- `RunData.setRuleTable`. -/
def setRuleTable (self : RunData) (shieldNamespace : String) : RunData :=
  let ruleTable := newRuleTable self.rspList self.nsList self.commonProfile shieldNamespace
  if !ruleTable.isEmpty && !ruleTable.isTargetEmpty then { self with ruleTable := some ruleTable }
  else self

/-- There is no table, or one without rules or targets. -/
def tableMissing (self : RunData) : Bool :=
  match self.ruleTable with
  | some table => table.isEmpty || table.isTargetEmpty
  | none => true

/-- The lists of `GetRuleTable` once both loaders have been asked: `rsp` and `ns`
are what their `GetData` returned. -/
def takeLists (self : RunData) (rsp : List ResourceSigningProfile × Bool)
    (ns : List Namespace × Bool) : RunData :=
  { self with
    rspList := if rsp.2 || decide (0 < rsp.1.length) then rsp.1 else self.rspList
    nsList := if ns.2 || decide (0 < ns.1.length) then ns.1 else self.nsList
    rspData := rsp.1
    nsData := ns.1 }

/-- The rest of `GetRuleTable`: the table is built anew if there is none or a list
was listed anew. -/
def updateRuleTable (self : RunData) (shieldNamespace : String)
    (rsp : List ResourceSigningProfile × Bool) (ns : List Namespace × Bool) : RunData :=
  let self := self.takeLists rsp ns
  if self.tableMissing || rsp.2 || ns.2 then self.setRuleTable shieldNamespace else self

/-- `RunData.GetRuleTable`; the table is the `ruleTable` of the result. -/
def getRuleTable (self : RunData) (shieldNamespace : String) (answers : RuleAnswers) : RunData :=
  self.updateRuleTable shieldNamespace (answers.rsp.getData true self.rspData)
    (answers.ns.getData true self.nsData)

/-- `Init` once both loaders have been asked. -/
def initWith (rspData : List ResourceSigningProfile) (nsData : List Namespace)
    (conf : ShieldConfig) : RunData :=
  { rspList := rspData
    nsList := nsData
    rspData := rspData
    nsData := nsData
    commonProfile := conf.commonProfile : RunData }.setRuleTable conf.namespace

/-- `RunData.Init`. -/
def init (conf : ShieldConfig) (answers : RuleAnswers) : RunData :=
  initWith (answers.rsp.getData false []).1 (answers.ns.getData false []).1 conf

/-- Installing a table leaves everything else as it is. -/
theorem setRuleTable_frame (self : RunData) (shieldNamespace : String) :
    ∃ table, self.setRuleTable shieldNamespace = { self with ruleTable := table } := by
  unfold setRuleTable
  dsimp only
  split_ifs
  · exact ⟨_, rfl⟩
  · exact ⟨self.ruleTable, rfl⟩

theorem setRuleTable_signerConfig (self : RunData) (shieldNamespace : String) :
    (self.setRuleTable shieldNamespace).signerConfig = self.signerConfig := by
  obtain ⟨table, htable⟩ := self.setRuleTable_frame shieldNamespace
  rw [htable]

theorem setRuleTable_rspData (self : RunData) (shieldNamespace : String) :
    (self.setRuleTable shieldNamespace).rspData = self.rspData := by
  obtain ⟨table, htable⟩ := self.setRuleTable_frame shieldNamespace
  rw [htable]

theorem setRuleTable_nsData (self : RunData) (shieldNamespace : String) :
    (self.setRuleTable shieldNamespace).nsData = self.nsData := by
  obtain ⟨table, htable⟩ := self.setRuleTable_frame shieldNamespace
  rw [htable]

theorem getRuleTable_signerConfig (self : RunData) (shieldNamespace : String)
    (answers : RuleAnswers) :
    (self.getRuleTable shieldNamespace answers).signerConfig = self.signerConfig := by
  rw [getRuleTable, updateRuleTable]
  split_ifs
  · exact setRuleTable_signerConfig ..
  · rfl

theorem init_signerConfig (conf : ShieldConfig) (answers : RuleAnswers) :
    (init conf answers).signerConfig = none :=
  setRuleTable_signerConfig ..

/-- `NewRuleTable` of the lists a run holds, with its common profile. -/
def freshTable (self : RunData) (shieldNamespace : String) : RuleTable :=
  newRuleTable self.rspList self.nsList self.commonProfile shieldNamespace

/-- The lists are those of the loaders, and the table, if there is one, is that of
the lists, and has rules and targets. -/
structure Current (shieldNamespace : String) (data : RunData) : Prop where
  rspList : data.rspList = data.rspData
  nsList : data.nsList = data.nsData
  table : ∀ table, data.ruleTable = some table → table = data.freshTable shieldNamespace ∧
    table.isEmpty = false ∧ table.isTargetEmpty = false

section Current

variable {shieldNamespace : String} {self : RunData}

/-- Building the table makes it current, unless an old table is kept. -/
theorem setRuleTable_current (hrsp : self.rspList = self.rspData)
    (hns : self.nsList = self.nsData)
    (h : self.ruleTable = none ∨ (self.freshTable shieldNamespace).isEmpty = false ∧
      (self.freshTable shieldNamespace).isTargetEmpty = false) :
    (self.setRuleTable shieldNamespace).Current shieldNamespace := by
  change Current shieldNamespace (if !(self.freshTable shieldNamespace).isEmpty &&
    !(self.freshTable shieldNamespace).isTargetEmpty then _ else _)
  split_ifs with husable
  · rw [Bool.and_eq_true, Bool.not_eq_true', Bool.not_eq_true'] at husable
    refine ⟨hrsp, hns, fun table htable => ?_⟩
    obtain rfl := Option.some.inj htable
    exact ⟨rfl, husable⟩
  · refine ⟨hrsp, hns, fun table htable => ?_⟩
    rcases h with hnone | husable'
    · rw [hnone] at htable
      cases htable
    · simp [husable'] at husable

theorem initWith_current (rspData : List ResourceSigningProfile) (nsData : List Namespace)
    (conf : ShieldConfig) : (initWith rspData nsData conf).Current conf.namespace :=
  setRuleTable_current rfl rfl (.inl rfl)

/-- What `GetData` returned stands for the data of the loader: it is the data
itself unless that is empty. -/
def Loaded {α : Type} (data : List α) (result : List α × Bool) : Prop :=
  data ≠ [] → result = (data, false)

theorem taken_eq {α : Type} {data : List α} {result : List α × Bool} (h : Loaded data result) :
    (if result.2 || decide (0 < result.1.length) then result.1 else data) = result.1 := by
  split_ifs with hcond
  · rfl
  · by_cases hdata : data = []
    · simp only [Bool.or_eq_true, decide_eq_true_eq, not_or, not_lt, nonpos_iff_eq_zero,
        List.length_eq_zero_iff] at hcond
      rw [hdata, hcond.2]
    · rw [h hdata]

theorem takeLists_rspList (h : self.Current shieldNamespace)
    {rsp : List ResourceSigningProfile × Bool} (hrsp : Loaded self.rspData rsp)
    (ns : List Namespace × Bool) : (self.takeLists rsp ns).rspList = rsp.1 := by
  rw [takeLists, h.rspList]
  exact taken_eq hrsp

theorem takeLists_nsList (h : self.Current shieldNamespace) {ns : List Namespace × Bool}
    (hns : Loaded self.nsData ns) (rsp : List ResourceSigningProfile × Bool) :
    (self.takeLists rsp ns).nsList = ns.1 := by
  rw [takeLists, h.nsList]
  exact taken_eq hns

section Installed

variable {table : RuleTable} {rsp : List ResourceSigningProfile × Bool}

/-- A table has rules, so the profiles it was built from are not loaded again. -/
theorem rsp_of_installed (h : self.Current shieldNamespace) (htable : self.ruleTable = some table)
    (hrsp : Loaded self.rspData rsp) : self.rspList ≠ [] ∧ rsp = (self.rspList, false) := by
  obtain ⟨heq, hnonempty, _⟩ := h.table table htable
  rw [heq] at hnonempty
  have hprofiles : self.rspList ≠ [] := (RuleTable.isEmpty_newRuleTable ..).1 hnonempty
  refine ⟨hprofiles, ?_⟩
  rw [h.rspList] at hprofiles ⊢
  exact hrsp hprofiles

theorem freshTable_of_installed (h : self.Current shieldNamespace)
    (htable : self.ruleTable = some table) (hrsp : Loaded self.rspData rsp)
    {ns : List Namespace × Bool} (hns : Loaded self.nsData ns) :
    (self.takeLists rsp ns).freshTable shieldNamespace =
      newRuleTable self.rspList ns.1 self.commonProfile shieldNamespace := by
  have hrspList : (self.takeLists rsp ns).rspList = self.rspList := by
    rw [takeLists_rspList h hrsp, (rsp_of_installed h htable hrsp).2]
  rw [freshTable, hrspList, takeLists_nsList h hns]
  rfl

/-- An installed table is kept if the namespaces were not listed anew. -/
theorem updateRuleTable_of_installed (h : self.Current shieldNamespace)
    (htable : self.ruleTable = some table) (hrsp : Loaded self.rspData rsp)
    {ns : List Namespace × Bool} (hreloaded : ns.2 = false) :
    self.updateRuleTable shieldNamespace rsp ns = self.takeLists rsp ns := by
  obtain ⟨_, hnonempty, htarget⟩ := h.table table htable
  have hsome : (self.takeLists rsp ns).ruleTable = some table := htable
  have hmissing : (self.takeLists rsp ns).tableMissing = false := by
    rw [tableMissing, hsome]
    simp [hnonempty, htarget]
  have hrsp2 : rsp.2 = false := by
    rw [(rsp_of_installed h htable hrsp).2]
  simp only [updateRuleTable, hmissing, hrsp2, hreloaded, Bool.or_false, Bool.false_eq_true,
    if_false]

end Installed

/-- **`GetRuleTable` keeps the table current**, unless a table is installed and the
namespace list comes from the cache with a namespace that a profile selects. -/
theorem updateRuleTable_current (h : self.Current shieldNamespace)
    {rsp : List ResourceSigningProfile × Bool} {ns : List Namespace × Bool}
    (hrsp : Loaded self.rspData rsp) (hns : Loaded self.nsData ns)
    (hfresh : self.ruleTable ≠ none → self.nsData = [] → ns.2 = false →
      ¬SelectsOneOf self.rspList ns.1 shieldNamespace) :
    (self.updateRuleTable shieldNamespace rsp ns).Current shieldNamespace := by
  have hrspList := takeLists_rspList h hrsp ns
  have hnsList := takeLists_nsList h hns rsp
  cases htable : self.ruleTable with
  | none =>
      have hnone : (self.takeLists rsp ns).ruleTable = none := htable
      have hmissing : (self.takeLists rsp ns).tableMissing = true := by
        rw [tableMissing, hnone]
      simp only [updateRuleTable, hmissing, Bool.true_or, if_true]
      exact setRuleTable_current hrspList hnsList (.inl hnone)
  | some table =>
      obtain ⟨htable_eq, hnonempty, htarget⟩ := h.table table htable
      have hfreshTable := freshTable_of_installed h htable hrsp hns
      cases hreloaded : ns.2 with
      | true =>
          have hnsData : self.nsData = [] := by
            by_contra hne
            rw [hns hne] at hreloaded
            cases hreloaded
          have hold : table = newRuleTable self.rspList [] self.commonProfile shieldNamespace := by
            rw [htable_eq, freshTable, h.nsList, hnsData]
          simp only [updateRuleTable, hreloaded, Bool.or_true, if_true]
          refine setRuleTable_current hrspList hnsList (.inr ?_)
          rw [hfreshTable]
          refine ⟨(RuleTable.isEmpty_newRuleTable ..).2 (rsp_of_installed h htable hrsp).1, ?_⟩
          exact RuleTable.isTargetEmpty_mono (hold ▸ htarget) ns.1
      | false =>
          have hkept : table = (self.takeLists rsp ns).freshTable shieldNamespace := by
            rw [hfreshTable, htable_eq, freshTable, h.nsList]
            by_cases hnsData : self.nsData = []
            · rw [hnsData]
              refine ((newRuleTable_eq_iff ..).2 ?_).symm
              exact hfresh (by rw [htable]; exact Option.some_ne_none _) hnsData hreloaded
            · rw [hns hnsData]
          rw [updateRuleTable_of_installed h htable hrsp hreloaded]
          refine ⟨hrspList, hnsList, fun table' htable' => ?_⟩
          obtain rfl := Option.some.inj (htable.symm.trans htable')
          exact ⟨hkept, hnonempty, htarget⟩

end Current

end RunData

end Shield
end IntegrityShield
