/-
# Concurrent requests

`RunData.Init` and `RunData.GetRuleTable` in any number of handlers that share the
process-wide cache of the profile list and the namespace list.

A handler takes a step for every access to the cache and for every list call of
the API server.  Between its steps other handlers take theirs, and an entry of the
cache may expire or be cleared.  A call that is not interrupted is the
`getRuleTable` of a single handler (`outcome_advance`).

The table is built anew if a list was listed anew, but not if it was found in the
cache.  So a handler that installed a table while the namespace list was not
cached keeps it when another one has cached the list, and the table lacks the
namespaces that a selector would match in it.
-/

import IntegrityShield.Base.Interleaving
import IntegrityShield.Shield.RunData

namespace IntegrityShield
namespace Shield

open Common Apis Interleaving

/-- The process-wide cache: the entries `RSPLoader/list` and `NamespaceLoader/list`. -/
structure SharedCache where
  rsp : Option (List ResourceSigningProfile) := none
  ns : Option (List Namespace) := none

/-- Where `GetData(true)` of a loader is. -/
inductive Fetch (α : Type) where
  /-- Before `cache.GetString`. -/
  | reading
  /-- Before the list call. -/
  | listing
  /-- Before `cache.SetString`. -/
  | storing (list : List α)

namespace Fetch

variable {α : Type}

/-- The next step of a loader with some data, or what it returns: `cached` is in
the cache now, and `listed` is what the API server answers now. -/
def next (data : List α) (cached : Option (List α)) (listed : Except String (List α)) :
    Fetch α → Fetch α ⊕ (List α × Bool)
  | .reading =>
      if data.length = 0 then
        match cached with
        | some list => .inr (list, false)
        | none => .inl .listing
      else .inr (data, false)
  | .listing =>
      match listed with
      | .ok list => if 0 < list.length then .inl (.storing list) else .inr (list, true)
      | .error _ => .inr (data, false)
  | .storing list => .inr (list, true)

/-- The entry of the cache after the step. -/
def cachedAfter (cached : Option (List α)) : Fetch α → Option (List α)
  | .storing list => some list
  | _ => cached

end Fetch

/-- Where a handler is. -/
inductive Phase where
  /-- In `Init`, before the profile list is read. -/
  | initRsp
  /-- In `Init`, before the namespace list is read. -/
  | initNs (rspData : List ResourceSigningProfile)
  /-- After `Init`. -/
  | ready
  /-- In `GetRuleTable`, in the loader of the profiles. -/
  | loadRsp (fetch : Fetch ResourceSigningProfile)
  /-- In `GetRuleTable`, in the loader of the namespaces. -/
  | loadNs (rsp : List ResourceSigningProfile × Bool) (fetch : Fetch Namespace)
  /-- In `GetRuleTable`, after the loaders. -/
  | loaded (rsp : List ResourceSigningProfile × Bool) (ns : List Namespace × Bool)
  /-- After `GetRuleTable`. -/
  | returned

/-- A handler, as far as it uses the rule table. -/
structure Process where
  conf : ShieldConfig
  data : RunData := {}
  phase : Phase := .initRsp

/-- What the API server answers. -/
structure ApiAnswers where
  rsp : Except String (List ResourceSigningProfile)
  ns : Except String (List Namespace)

namespace Process

/-- One step of a handler.  After `Init` and after a call it starts a new call. -/
def advance (api : ApiAnswers) (p : Process) (cache : SharedCache) : Process × SharedCache :=
  match p.phase with
  | .initRsp =>
      ({ p with phase := .initNs (Answer.getData ⟨cache.rsp, api.rsp⟩ false []).1 }, cache)
  | .initNs rspData =>
      ({ p with
        data := RunData.initWith rspData (Answer.getData ⟨cache.ns, api.ns⟩ false []).1 p.conf
        phase := .ready }, cache)
  | .ready => ({ p with phase := .loadRsp .reading }, cache)
  | .returned => ({ p with phase := .loadRsp .reading }, cache)
  | .loadRsp fetch =>
      (match fetch.next p.data.rspData cache.rsp api.rsp with
        | .inl fetch' => { p with phase := .loadRsp fetch' }
        | .inr rsp => { p with phase := .loadNs rsp .reading },
       { cache with rsp := fetch.cachedAfter cache.rsp })
  | .loadNs rsp fetch =>
      (match fetch.next p.data.nsData cache.ns api.ns with
        | .inl fetch' => { p with phase := .loadNs rsp fetch' }
        | .inr ns => { p with phase := .loaded rsp ns },
       { cache with ns := fetch.cachedAfter cache.ns })
  | .loaded rsp ns =>
      ({ p with data := p.data.updateRuleTable p.conf.namespace rsp ns, phase := .returned }, cache)

end Process

/-- An entry of the cache expires, or is cleared. -/
inductive Forget where
  | rsp
  | ns

/-- The cache without an entry. -/
def SharedCache.forget : Forget → SharedCache → SharedCache
  | .rsp, cache => { cache with rsp := none }
  | .ns, cache => { cache with ns := none }

/-- The handlers of one server. -/
def handlers : Program ShieldConfig ApiAnswers Forget Process SharedCache where
  create conf := { conf := conf }
  advance := Process.advance
  environment := SharedCache.forget

/-- The server with its cache. -/
abbrev Server := System ℕ Process SharedCache

/-- One action of the server: a handler is made for a request, a handler takes a
step, or an entry of the cache is forgotten. -/
abbrev ServerAction := Action ℕ ShieldConfig ApiAnswers Forget

section Sequential

/-- What a loader is going to return, if the rest of its call is answered so. -/
def Fetch.result {α : Type} (data : List α) (answer : Answer α) : Fetch α → List α × Bool
  | .reading => answer.getData true data
  | .listing =>
      match answer.listed with
      | .ok list => (list, true)
      | .error _ => (data, false)
  | .storing list => (list, true)

theorem Fetch.next_result {α : Type} (data : List α) (answer : Answer α) (fetch : Fetch α) :
    (match fetch.next data answer.cached answer.listed with
      | .inl fetch' => fetch'.result data answer
      | .inr result => result) = fetch.result data answer := by
  cases fetch with
  | reading =>
      simp only [Fetch.next, Fetch.result, Answer.getData, Answer.load]
      split_ifs with hdata
      · cases answer.cached with
        | some list => rfl
        | none => rfl
      · rfl
  | listing =>
      simp only [Fetch.next]
      cases hlisted : answer.listed with
      | error e => simp [Fetch.result, hlisted]
      | ok list =>
          simp only [Fetch.result, hlisted]
          split_ifs with hlist
          · rfl
          · rfl
  | storing list => rfl

/-- What a handler is going to hold at the end of `Init` or of its call, if the
rest of that is answered so. -/
def Process.outcome (answers : RuleAnswers) (p : Process) : RunData :=
  match p.phase with
  | .initRsp => RunData.init p.conf answers
  | .initNs rspData => RunData.initWith rspData (answers.ns.getData false []).1 p.conf
  | .ready => p.data
  | .returned => p.data
  | .loadRsp fetch => p.data.updateRuleTable p.conf.namespace
      (fetch.result p.data.rspData answers.rsp) (answers.ns.getData true p.data.nsData)
  | .loadNs rsp fetch => p.data.updateRuleTable p.conf.namespace rsp
      (fetch.result p.data.nsData answers.ns)
  | .loaded rsp ns => p.data.updateRuleTable p.conf.namespace rsp ns

/-- A step of `Init` or of a call keeps the outcome, whoever has changed the cache
before it: what the outcome depends on is what the steps read.  So a call answered
so is `RunData.getRuleTable`, and `Init` is `RunData.init`. -/
theorem Process.outcome_advance (answers : RuleAnswers) (p : Process)
    (hready : p.phase ≠ .ready) (hreturned : p.phase ≠ .returned) :
    (p.advance ⟨answers.rsp.listed, answers.ns.listed⟩
      ⟨answers.rsp.cached, answers.ns.cached⟩).1.outcome answers = p.outcome answers := by
  obtain ⟨conf, data, phase⟩ := p
  cases phase with
  | initRsp => rfl
  | initNs rspData => rfl
  | ready => exact absurd rfl hready
  | returned => exact absurd rfl hreturned
  | loadRsp fetch =>
      have hnext := fetch.next_result data.rspData answers.rsp
      simp only [advance, outcome]
      rw [← hnext]
      cases fetch.next data.rspData answers.rsp.cached answers.rsp.listed with
      | inl fetch' => rfl
      | inr rsp => rfl
  | loadNs rsp fetch =>
      have hnext := fetch.next_result data.nsData answers.ns
      simp only [advance, outcome]
      rw [← hnext]
      cases fetch.next data.nsData answers.ns.cached answers.ns.listed with
      | inl fetch' => rfl
      | inr ns => rfl
  | loaded rsp ns => rfl

end Sequential

section Invariant

/-- A loader goes past the cache only if it has no data. -/
def Fetch.Fits {α : Type} (data : List α) (fetch : Fetch α) : Prop :=
  fetch = .reading ∨ data = []

/-- A loader that goes on has no data. -/
theorem Fetch.next_inl {α : Type} {data : List α} {cached : Option (List α)}
    {listed : Except String (List α)} {fetch fetch' : Fetch α} (hfits : fetch.Fits data)
    (h : fetch.next data cached listed = .inl fetch') : data = [] := by
  rcases hfits with rfl | hdata
  · by_contra hne
    simp [Fetch.next, hne] at h
  · exact hdata

/-- What a loader returns: its data, if there is some; otherwise a list it has
listed anew, an empty one, or the one it has found in the cache. -/
theorem Fetch.next_inr {α : Type} {data : List α} {cached : Option (List α)}
    {listed : Except String (List α)} {fetch : Fetch α} {result : List α × Bool}
    (hfits : fetch.Fits data) (h : fetch.next data cached listed = .inr result) :
    RunData.Loaded data result ∧ (data = [] → result.2 = true ∨ result.1 = [] ∨
      fetch = .reading ∧ cached = some result.1) := by
  cases fetch with
  | reading =>
      simp only [Fetch.next] at h
      split_ifs at h with hdata
      · rw [List.length_eq_zero_iff] at hdata
        refine ⟨fun hne => absurd hdata hne, fun _ => ?_⟩
        cases hcached : cached with
        | none => rw [hcached] at h; cases h
        | some list =>
            rw [hcached] at h
            obtain rfl := Sum.inr.inj h
            exact .inr (.inr ⟨rfl, rfl⟩)
      · obtain rfl := Sum.inr.inj h
        exact ⟨fun _ => rfl, fun hnil => .inr (.inl hnil)⟩
  | listing =>
      have hdata : data = [] := hfits.resolve_left fun hc => (nomatch hc)
      refine ⟨fun hne => absurd hdata hne, fun _ => ?_⟩
      simp only [Fetch.next] at h
      cases hlisted : listed with
      | error e =>
          rw [hlisted] at h
          obtain rfl := Sum.inr.inj h
          exact .inr (.inl hdata)
      | ok list =>
          simp only [hlisted] at h
          split_ifs at h
          obtain rfl := Sum.inr.inj h
          exact .inl rfl
  | storing list =>
      have hdata : data = [] := hfits.resolve_left fun hc => (nomatch hc)
      obtain rfl := Sum.inr.inj h
      exact ⟨fun hne => absurd hdata hne, fun _ => .inl rfl⟩

/-- What holds of a handler in each of its phases: its table is current, and a
namespace list that it has found in the cache does not matter to a table that it
has installed. -/
def Process.Fits (p : Process) : Prop :=
  match p.phase with
  | .initRsp => True
  | .initNs _ => True
  | .ready => p.data.Current p.conf.namespace
  | .returned => p.data.Current p.conf.namespace
  | .loadRsp fetch => p.data.Current p.conf.namespace ∧ fetch.Fits p.data.rspData
  | .loadNs rsp fetch => p.data.Current p.conf.namespace ∧
      RunData.Loaded p.data.rspData rsp ∧ fetch.Fits p.data.nsData
  | .loaded rsp ns => p.data.Current p.conf.namespace ∧
      RunData.Loaded p.data.rspData rsp ∧ RunData.Loaded p.data.nsData ns ∧
      (p.data.ruleTable ≠ none → p.data.nsData = [] → ns.2 = false →
        ¬SelectsOneOf p.data.rspList ns.1 p.conf.namespace)

/-- The handler has a table and no namespaces, and finds in the cache a namespace
list with one that a profile of its own selects. -/
def Process.StaleHit (p : Process) (cache : SharedCache) : Prop :=
  ∃ rsp list, p.phase = .loadNs rsp .reading ∧ p.data.ruleTable ≠ none ∧ p.data.nsData = [] ∧
    cache.ns = some list ∧ SelectsOneOf p.data.rspList list p.conf.namespace

/-- A step of a handler keeps what holds of it, unless it is such a hit. -/
theorem Process.advance_fits {p : Process} {cache : SharedCache} (api : ApiAnswers)
    (h : p.Fits) (hstale : ¬p.StaleHit cache) : (p.advance api cache).1.Fits := by
  obtain ⟨conf, data, phase⟩ := p
  cases phase with
  | initRsp => trivial
  | initNs rspData => exact RunData.initWith_current ..
  | ready => exact ⟨h, .inl rfl⟩
  | returned => exact ⟨h, .inl rfl⟩
  | loadRsp fetch =>
      obtain ⟨hcurrent, hfits⟩ := h
      simp only [advance]
      cases hnext : fetch.next data.rspData cache.rsp api.rsp with
      | inl fetch' => exact ⟨hcurrent, .inr (Fetch.next_inl hfits hnext)⟩
      | inr rsp => exact ⟨hcurrent, (Fetch.next_inr hfits hnext).1, .inl rfl⟩
  | loadNs rsp fetch =>
      obtain ⟨hcurrent, hrsp, hfits⟩ := h
      simp only [advance]
      cases hnext : fetch.next data.nsData cache.ns api.ns with
      | inl fetch' => exact ⟨hcurrent, hrsp, .inr (Fetch.next_inl hfits hnext)⟩
      | inr ns =>
          obtain ⟨hloaded, hempty⟩ := Fetch.next_inr hfits hnext
          refine ⟨hcurrent, hrsp, hloaded, fun htable hdata hreloaded hselects => ?_⟩
          rcases hempty hdata with htrue | hnil | ⟨rfl, hcached⟩
          · rw [hreloaded] at htrue
            cases htrue
          · obtain ⟨_, _, _, _, _, _, hmem, _⟩ := hnil ▸ hselects
            cases hmem
          · exact hstale ⟨rsp, ns.1, rfl, htable, hdata, hcached, hselects⟩
  | loaded rsp ns =>
      obtain ⟨hcurrent, hrsp, hns, hfresh⟩ := h
      exact RunData.updateRuleTable_current hcurrent hrsp hns hfresh

/-- The condition on the actions of a server: no handler takes a step that is such
a hit. -/
def NoStaleHit (server : Server) (action : ServerAction) : Prop :=
  ∀ i api p, action = .advance i api → server.processes i = some p → ¬p.StaleHit server.shared

/-- In every run without such hits all handlers are as they should be. -/
theorem fits_of_noStaleHit {cache : SharedCache} {actions : List ServerAction}
    (h : Meets handlers NoStaleHit { shared := cache } actions) {i : ℕ} {p : Process}
    (hp : (run handlers { shared := cache } actions).processes i = some p) : p.Fits := by
  have hcreate : ∀ conf, (handlers.create conf).Fits := fun _ => trivial
  refine local_invariant Process.Fits hcreate ?_ ?_ h i p hp
  · intro server i api p hp hfits hgood
    exact Process.advance_fits api hfits (hgood i api p rfl hp)
  · intro i p hnone
    cases hnone

end Invariant

/-- **The rule table under concurrent requests.**  In every interleaving of
handlers, from any content of the cache, in which no handler with a table but
without namespaces finds in the cache a namespace that one of its profiles
selects: a table that `GetRuleTable` returns is `NewRuleTable` of the lists that
the handler holds. -/
theorem returned_table_current (cache : SharedCache) (actions : List ServerAction)
    (hmeets : Meets handlers NoStaleHit { shared := cache } actions) (i : ℕ) (p : Process)
    (hp : (run handlers { shared := cache } actions).processes i = some p)
    (hreturned : p.phase = .returned) (table : RuleTable) (htable : p.data.ruleTable = some table) :
    table = newRuleTable p.data.rspList p.data.nsList p.data.commonProfile p.conf.namespace := by
  have hfits := fits_of_noStaleHit hmeets hp
  rw [Process.Fits, hreturned] at hfits
  exact (hfits.table table htable).1

/-- A profile of the namespace `ops`. -/
def opsProfile : ResourceSigningProfile where
  «namespace» := "ops"

/-- A profile of the shield's namespace for all namespaces. -/
def everywhereProfile : ResourceSigningProfile where
  «namespace» := "shield"
  spec := { targetNamespaceSelector := some { include_ := ["*"] } }

/-- A configuration with the namespace `shield`. -/
def shieldConf : ShieldConfig where
  «namespace» := "shield"

/-- An API server with these profiles and the namespace `app`. -/
def appCluster : ApiAnswers where
  rsp := .ok [opsProfile, everywhereProfile]
  ns := .ok [{ name := "app" }]

/-- The cache with both lists of that API server. -/
def appCache : SharedCache where
  rsp := some [opsProfile, everywhereProfile]
  ns := some [{ name := "app" }]

/-- A handler alone: `Init`, and one call. -/
def singleHandler : List ServerAction :=
  .spawn 0 shieldConf :: List.replicate 6 (.advance 0 appCluster)

/-- Its only look into the cache during the call is for the profiles. -/
theorem singleHandler_meets : Meets handlers NoStaleHit { shared := appCache } singleHandler := by
  refine ⟨?_, ?_, ?_, ?_, ?_, ?_, ?_, trivial⟩
  all_goals
    intro i api p hact hp
    cases hact
  all_goals
    obtain rfl := Option.some.inj hp
    rintro ⟨rsp, list, hphase, _, hdata, _⟩
  · cases hphase
  · cases hphase
  · cases hphase
  · cases hphase
  · -- the namespaces were found by `Init`
    cases hdata
  · cases hphase

/-- The table a handler has returned from `GetRuleTable`, if it has. -/
def Process.returnedTable (p : Process) : Option RuleTable :=
  match p.phase with
  | .returned => p.data.ruleTable
  | _ => none

theorem Process.returnedTable_eq_some {p : Process} {table : RuleTable}
    (h : p.returnedTable = some table) :
    p.phase = .returned ∧ p.data.ruleTable = some table := by
  unfold Process.returnedTable at h
  split at h
  · rename_i hphase
    exact ⟨hphase, h⟩
  · cases h

theorem returned_table_current_single :
    ∃ p table, (run handlers { shared := appCache } singleHandler).processes 0 = some p ∧
      p.phase = .returned ∧ p.data.ruleTable = some table ∧ table.namespaces = ["ops", "app"] ∧
      table = newRuleTable p.data.rspList p.data.nsList p.data.commonProfile p.conf.namespace := by
  have hrun : (((run handlers { shared := appCache } singleHandler).processes 0).bind
      Process.returnedTable).map RuleTable.namespaces = some ["ops", "app"] := by
    decide +kernel
  obtain ⟨table, htable, hnamespaces⟩ := Option.map_eq_some_iff.1 hrun
  obtain ⟨p, hp, htable⟩ := Option.bind_eq_some_iff.1 htable
  obtain ⟨hreturned, htable⟩ := Process.returnedTable_eq_some htable
  exact ⟨p, table, hp, hreturned, htable, hnamespaces,
    returned_table_current appCache singleHandler singleHandler_meets 0 p hp hreturned table htable⟩

/-- Conversely, such a hit makes the call return a table that is not that of the
lists: two more steps of the handler end it. -/
theorem returned_table_stale (cache : SharedCache) (actions : List ServerAction)
    (hmeets : Meets handlers NoStaleHit { shared := cache } actions) (i : ℕ) (p : Process)
    (hp : (run handlers { shared := cache } actions).processes i = some p)
    (hstale : p.StaleHit (run handlers { shared := cache } actions).shared)
    (api api' : ApiAnswers) :
    ∃ p' table, (run handlers { shared := cache }
        (actions ++ [.advance i api, .advance i api'])).processes i = some p' ∧
      p'.phase = .returned ∧ p'.data.ruleTable = some table ∧
      table ≠ newRuleTable p'.data.rspList p'.data.nsList p'.data.commonProfile
        p'.conf.namespace := by
  have hfits := fits_of_noStaleHit hmeets hp
  obtain ⟨rsp, list, hphase, htable, hdata, hcached, hselects⟩ := hstale
  rw [Process.Fits, hphase] at hfits
  obtain ⟨hcurrent, hrsp, _⟩ := hfits
  obtain ⟨table, htable⟩ := Option.ne_none_iff_exists'.1 htable
  have hns : RunData.Loaded p.data.nsData (list, false) := fun hne => absurd hdata hne
  set server := run handlers { shared := cache } actions
  -- the hit, and the end of the call
  have hhit : (p.advance api server.shared).1 = { p with phase := .loaded rsp (list, false) } := by
    simp [Process.advance, hphase, Fetch.next, hdata, hcached]
  have hrun : (run handlers { shared := cache }
      (actions ++ [.advance i api, .advance i api'])).processes i =
      some { p with
        data := p.data.updateRuleTable p.conf.namespace rsp (list, false)
        phase := .returned } := by
    have hfirst := step_advance handlers hp api
    have hsecond := step_advance handlers hfirst api'
    rw [run_append]
    refine hsecond.trans (congrArg some ?_)
    change (Process.advance api' (p.advance api server.shared).1 _).1 = _
    rw [hhit]
    rfl
  refine ⟨_, table, hrun, rfl, ?_, ?_⟩
  · rw [RunData.updateRuleTable_of_installed hcurrent htable hrsp rfl]
    exact htable
  · rw [RunData.updateRuleTable_of_installed hcurrent htable hrsp rfl]
    have hfresh := RunData.freshTable_of_installed hcurrent htable hrsp hns
    rw [RunData.freshTable] at hfresh
    rw [hfresh, (hcurrent.table table htable).1, RunData.freshTable, hcurrent.nsList, hdata]
    exact fun heq => (newRuleTable_eq_iff ..).1 heq.symm hselects

/-- Handler `1` starts on an empty cache and stores the profile list; handler `0`
runs `Init` and finds that list, but no namespace list; handler `1` goes on and
stores the namespace list; handler `0` calls `GetRuleTable`. -/
def crossedHandlers : List ServerAction :=
  .spawn 1 shieldConf :: List.replicate 6 (.advance 1 appCluster) ++
    .spawn 0 shieldConf :: List.replicate 2 (.advance 0 appCluster) ++
    List.replicate 3 (.advance 1 appCluster) ++ List.replicate 4 (.advance 0 appCluster)

/-- **The table that handler `0` returns is stale**: it lacks the namespace `app`,
which the lists that it holds make a target. -/
theorem returned_table_misses_app :
    ∃ p table, (run handlers { shared := {} } crossedHandlers).processes 0 = some p ∧
      p.phase = .returned ∧ p.data.ruleTable = some table ∧ table.namespaces = ["ops"] ∧
      (newRuleTable p.data.rspList p.data.nsList p.data.commonProfile
        p.conf.namespace).namespaces = ["ops", "app"] ∧
      table ≠ newRuleTable p.data.rspList p.data.nsList p.data.commonProfile
        p.conf.namespace := by
  have hrun : ((run handlers { shared := {} } crossedHandlers).processes 0).bind
      (fun p => p.returnedTable.map fun table =>
        (table.namespaces, (p.data.freshTable p.conf.namespace).namespaces)) =
      some (["ops"], ["ops", "app"]) := by
    decide +kernel
  obtain ⟨p, hp, hrun⟩ := Option.bind_eq_some_iff.1 hrun
  obtain ⟨table, htable, hnamespaces⟩ := Option.map_eq_some_iff.1 hrun
  obtain ⟨hreturned, htable⟩ := Process.returnedTable_eq_some htable
  obtain ⟨hold, hnew⟩ := Prod.mk.inj hnamespaces
  refine ⟨p, table, hp, hreturned, htable, hold, hnew, ?_⟩
  rintro rfl
  have hboth : ["ops"] = ["ops", "app"] := hold.symm.trans hnew
  cases hboth

end Shield
end IntegrityShield
