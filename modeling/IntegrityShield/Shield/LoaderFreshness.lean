/-
# How old the lists are that a request is checked with

`Load` of the loaders (`rspLoader.go`, `namespaceLoader.go`, `sigConfLoader.go`, `resSigLoader.go`)
with the cache that they share (`Util.Cache`).  A list is in the cache under a name of its own, and
for a time that depends on the loader.

The loads of concurrent requests take a step here for each call of the cache or of the API server
(`Loading.advance`); the clock goes on in between, and others may empty the cache (`ClearCache`) or
use it under other names, as the helm plugin does.  A load that is not interrupted is the `load` of
a single handler (`load_alone`).  Two loads may both miss the cache, and the older answer may be the
one that stays in it.  What a load returns is all the same no older than its loader's interval and
the time that a load takes to store its answer (`loaded_fresh`).

A list is represented by its text, in which it is cached; what is read from the cache can be decoded
because it was encoded there.
-/

import IntegrityShield.Base.Interleaving
import IntegrityShield.Shield.RunData
import IntegrityShield.Util.Cache

namespace IntegrityShield
namespace Shield

open Interleaving

/-- The loaders; that of the signatures has a list for each namespace and label selector. -/
inductive Loader where
  | rsp
  | «namespace»
  | signerConfig (shieldNamespace : String)
  | resSig («namespace» labelSelector : String)

namespace Loader

/-- The name of the list in the cache. -/
def keyName : Loader → String
  | .rsp => "RSPLoader/list"
  | .namespace => "NamespaceLoader/list"
  | .signerConfig shieldNamespace => "SignerConfigLoader/" ++ shieldNamespace ++ "/list"
  | .resSig ns labelSelector => "ResSigLoader/" ++ ns ++ "/list/" ++ labelSelector

/-- `time.Second`. -/
def second : ℤ := 1000000000

/-- The time that the list stays in the cache. -/
def interval : Loader → ℤ
  | .rsp => second * 60
  | .namespace => second * 30
  | .signerConfig _ => second * 10
  | .resSig .. => second * 0

theorem interval_nonneg (loader : Loader) : 0 ≤ loader.interval := by
  cases loader <;> simp [interval, second]

/-- Lists under one name stay there for the same time. -/
theorem interval_eq {loader loader' : Loader} (h : loader.keyName = loader'.keyName) :
    loader.interval = loader'.interval := by
  -- the names of two loaders differ in the first letters
  unfold keyName at h
  cases loader <;> cases loader' <;> first
    | rfl
    | exact absurd (congrArg String.toList h) (by simp)

end Loader

/-- A list from the API server. -/
structure ListText where
  text : String
  items : ℕ

/-- Where a load is. -/
inductive Loading where
  /-- before it looks into the cache -/
  | called (loader : Loader) (doK8sApiCall : Bool)
  /-- before it asks the API server -/
  | missed (loader : Loader)
  /-- the API server has answered, at the time `u` -/
  | listed (loader : Loader) (u : ℤ) (list : ListText)
  /-- it has a list or not, at the time `t` -/
  | returned (loader : Loader) (t : ℤ) (text : Option String)
  | failed (loader : Loader)

/-- The cache and, for the statements, the clock and what the API server has answered. -/
structure Clock where
  now : ℤ
  cache : Cache String := Cache.newCache
  answers : List (ℤ × String × String) := []

/-- `Load`, step by step. -/
def Loading.advance (answer : Except String ListText) (p : Loading) (sh : Clock) :
    Loading × Clock :=
  match p with
  | .called loader doK8sApiCall =>
      let cached := sh.cache.getString some loader.keyName sh.now
      if cached = "" then
        if doK8sApiCall then (.missed loader, sh) else (.returned loader sh.now none, sh)
      else (.returned loader sh.now (some cached), sh)
  | .missed loader =>
      match answer with
      | .error _ => (.failed loader, sh)
      | .ok list =>
          (.listed loader sh.now list,
            { sh with answers := (sh.now, loader.keyName, list.text) :: sh.answers })
  | .listed loader _ list =>
      (.returned loader sh.now (some list.text),
        if 0 < list.items then
          { sh with
            cache := sh.cache.set loader.keyName (some list.text) (some loader.interval)
              (fun _ => sh.now) sh.now }
        else sh)
  | .returned loader t text => (.returned loader t text, sh)
  | .failed loader => (.failed loader, sh)

/-- What else happens: time passes, a name is cleared, and the cache is used under other names. -/
inductive Meanwhile where
  | passes (d : ℕ)
  | clears (name : String)
  | stores (name text : String) (ttl : Option ℤ)

def Meanwhile.apply : Meanwhile → Clock → Clock
  | .passes d, sh => { sh with now := sh.now + d }
  | .clears name, sh => { sh with cache := sh.cache.unset name }
  | .stores name text ttl, sh =>
      { sh with
        cache := sh.cache.set name (some text) ttl (fun _ => sh.now) sh.now }

/-- The loads of a server. -/
def loads : Program (Loader × Bool) (Except String ListText) Meanwhile Loading Clock where
  create call := .called call.1 call.2
  advance := Loading.advance
  environment := Meanwhile.apply

/-- The data of a loader after a load, if it had some before. -/
def Loading.data {α : Type} (decode : String → List α) (data : List α) : Loading → List α
  | .returned _ _ (some text) => decode text
  | .returned _ _ none => []
  | _ => data

/-- A load that is not interrupted. -/
theorem load_alone {α : Type} {encode : List α → String} {decode : String → List α}
    (hdecode : ∀ list, decode (encode list) = list) (hencode : ∀ list, encode list ≠ "")
    (answer : Answer α) (loader : Loader) (doK8sApiCall : Bool) (data : List α) (sh : Clock)
    (hcached : sh.cache.getString some loader.keyName sh.now =
      (answer.cached.map encode).getD "") :
    let listed := answer.listed.map fun list => ListText.mk (encode list) list.length
    let last := (fun s : Loading × Clock => s.1.advance listed s.2)^[3]
      (.called loader doK8sApiCall, sh)
    last.1.data decode data = (answer.load doK8sApiCall data).1 := by
  obtain ⟨cached, listed⟩ := answer
  cases cached with
  | some list =>
      simp [Loading.advance, Loading.data, Answer.load, hcached, hencode, hdecode]
  | none =>
      cases doK8sApiCall with
      | false => simp [Loading.advance, Loading.data, Answer.load, hcached]
      | true =>
          cases listed with
          | error e =>
              simp [Loading.advance, Loading.data, Answer.load, hcached, Except.map]
          | ok list =>
              simp [Loading.advance, Loading.data, Answer.load, hcached, hdecode, Except.map]

/-! ## The age of a list -/

/-- The API server has answered with the text under a name, at most so long before the time `t`. -/
def Clock.Answered (sh : Clock) (key : String) (text : String) (t age : ℤ) : Prop :=
  ∃ u, (u, key, text) ∈ sh.answers ∧ t ≤ u + age

section Freshness

variable {delay : ℕ}

/-- What is assumed of a run: a load stores an answer at most `delay` after it was given, and no one
else stores anything under the name of a list. -/
def Timely (delay : ℕ) (sys : System ℕ Loading Clock) :
    Action ℕ (Loader × Bool) (Except String ListText) Meanwhile → Prop
  | .advance i _ =>
      match sys.processes i with
      | some (.listed _ u _) => sys.shared.now ≤ u + delay
      | _ => True
  | .environment (.stores name _ _) => ∀ loader : Loader, name ≠ loader.keyName
  | _ => True

/-- What is in the cache under the name of a list expires before it is too old. -/
def Clock.Kept (delay : ℕ) (sh : Clock) : Prop :=
  ∀ (loader : Loader) (obj : Cache.CachedObject String),
    sh.cache.data.lookup loader.keyName = some obj →
      ∃ text, obj.rawObject = some text ∧
        sh.Answered loader.keyName text obj.expired (loader.interval + delay)

/-- What a load knows. -/
def Loading.Knows (delay : ℕ) (p : Loading) (sh : Clock) : Prop :=
  match p with
  | .listed loader u list => (u, loader.keyName, list.text) ∈ sh.answers
  | .returned loader t (some text) =>
      sh.Answered loader.keyName text t (loader.interval + delay)
  | _ => True

theorem Clock.Answered.mono {sh sh' : Clock} {key text : String} {t age : ℤ}
    (h : sh.Answered key text t age) (hsub : sh.answers ⊆ sh'.answers) :
    sh'.Answered key text t age := by
  obtain ⟨u, hmem, hu⟩ := h
  exact ⟨u, hsub hmem, hu⟩

theorem Loading.Knows.mono {p : Loading} {sh sh' : Clock} (h : p.Knows delay sh)
    (hsub : sh.answers ⊆ sh'.answers) : p.Knows delay sh' := by
  cases p with
  | called => trivial
  | missed => trivial
  | failed => trivial
  | listed loader u list => exact hsub h
  | returned loader t text =>
      cases text with
      | none => trivial
      | some text => exact Clock.Answered.mono h hsub

/-- A cache with no other entries holds no other lists. -/
theorem Clock.Kept.mono {sh sh' : Clock} (h : sh.Kept delay) (hsub : sh.answers ⊆ sh'.answers)
    (hcache : ∀ (loader : Loader) obj, sh'.cache.data.lookup loader.keyName = some obj →
      sh.cache.data.lookup loader.keyName = some obj) : sh'.Kept delay := by
  intro loader obj hobj
  obtain ⟨text, htext, hanswered⟩ := h loader obj (hcache loader obj hobj)
  exact ⟨text, htext, hanswered.mono hsub⟩

/-- What is in the cache after a `Set`. -/
theorem lookup_set {cache : Cache String} {name key : String} {object : Option String}
    {ttl : Option ℤ} {now : ℤ} {obj : Cache.CachedObject String}
    (h : (cache.set name object ttl (fun _ => now) now).data.lookup key = some obj) :
    key = name ∧ obj = Cache.newCachedObject object now ttl ∨
      key ≠ name ∧ cache.data.lookup key = some obj := by
  unfold Cache.set at h
  by_cases hkey : key = name
  · subst hkey
    rw [AList.lookup_insert] at h
    exact Or.inl ⟨rfl, (Option.some.inj h).symm⟩
  · rw [AList.lookup_insert_ne hkey] at h
    rcases Cache.lookup_clearExpiredItem cache (fun _ => now) key with hsame | ⟨hnone, -⟩
    · exact Or.inr ⟨hkey, hsame ▸ h⟩
    · rw [hnone] at h
      cases h

/-- An answer that is stored in time expires in time. -/
theorem Clock.Kept.set {sh : Clock} (h : sh.Kept delay) {loader : Loader} {u : ℤ}
    {list : ListText} (hanswered : (u, loader.keyName, list.text) ∈ sh.answers)
    (htimely : sh.now ≤ u + delay) :
    Clock.Kept delay { sh with
      cache := sh.cache.set loader.keyName (some list.text) (some loader.interval)
        (fun _ => sh.now) sh.now } := by
  intro loader' obj hobj
  rcases lookup_set hobj with ⟨hkey, rfl⟩ | ⟨-, hold⟩
  · refine ⟨list.text, rfl, u, hkey ▸ hanswered, ?_⟩
    have hinterval := Loader.interval_eq hkey
    simp only [Cache.newCachedObject, Option.getD_some]
    omega
  · exact h loader' obj hold

/-- What a load finds in the cache. -/
theorem answered_of_getString {sh : Clock} (h : sh.Kept delay) (loader : Loader)
    (hcached : sh.cache.getString some loader.keyName sh.now ≠ "") :
    sh.Answered loader.keyName (sh.cache.getString some loader.keyName sh.now) sh.now
      (loader.interval + delay) := by
  unfold Cache.getString Cache.get at hcached ⊢
  cases hobj : sh.cache.data.lookup loader.keyName with
  | none =>
      rw [hobj] at hcached
      exact absurd rfl hcached
  | some obj =>
      obtain ⟨text, htext, u, hmem, hu⟩ := h loader obj hobj
      rw [hobj] at hcached
      by_cases hexpired : obj.expired < sh.now
      · simp only [if_pos hexpired] at hcached
        exact absurd rfl hcached
      · simp only [if_neg hexpired, htext]
        exact ⟨u, hmem, by omega⟩

/-- One step of a load. -/
theorem advance_fresh {answer : Except String ListText} {p : Loading} {sh : Clock}
    (htimely : ∀ loader u list, p = .listed loader u list → sh.now ≤ u + delay)
    (hsh : sh.Kept delay) (hp : p.Knows delay sh) :
    (p.advance answer sh).2.Kept delay ∧ sh.answers ⊆ (p.advance answer sh).2.answers ∧
      (p.advance answer sh).1.Knows delay (p.advance answer sh).2 := by
  have hread : ∀ {p' : Loading}, p'.Knows delay sh →
      sh.Kept delay ∧ sh.answers ⊆ sh.answers ∧ p'.Knows delay sh :=
    fun h => ⟨hsh, List.Subset.refl _, h⟩
  cases p with
  | called loader doK8sApiCall =>
      simp only [Loading.advance]
      split_ifs with hmissed hcall
      · exact hread trivial
      · exact hread trivial
      · exact hread (answered_of_getString hsh loader hmissed)
  | missed loader =>
      cases answer with
      | error e => exact hread trivial
      | ok list =>
          have hsub := List.subset_cons_self (sh.now, loader.keyName, list.text) sh.answers
          exact ⟨hsh.mono hsub fun _ _ h => h, hsub, List.mem_cons_self⟩
  | listed loader u list =>
      have hnow := htimely loader u list rfl
      have hreturned : sh.Answered loader.keyName list.text sh.now (loader.interval + delay) :=
        ⟨u, hp, by have := loader.interval_nonneg; omega⟩
      simp only [Loading.advance]
      split_ifs
      · exact ⟨hsh.set hp hnow, List.Subset.refl _, hreturned⟩
      · exact hread hreturned
  | returned loader t text => exact hread hp
  | failed loader => exact hread trivial

/-- What happens in between. -/
theorem apply_fresh {e : Meanwhile} {sh : Clock} (hsh : sh.Kept delay)
    (hforeign : ∀ name text ttl, e = .stores name text ttl →
      ∀ loader : Loader, name ≠ loader.keyName) :
    (e.apply sh).Kept delay ∧ sh.answers ⊆ (e.apply sh).answers := by
  cases e with
  | passes d => exact ⟨hsh.mono (List.Subset.refl _) fun _ _ h => h, List.Subset.refl _⟩
  | clears name =>
      refine ⟨hsh.mono (List.Subset.refl _) fun loader obj h => ?_, List.Subset.refl _⟩
      simp only [Meanwhile.apply, Cache.unset, Cache.lookup_deleteKey] at h
      split_ifs at h
      exact h
  | stores name text ttl =>
      refine ⟨hsh.mono (List.Subset.refl _) fun loader obj h => ?_, List.Subset.refl _⟩
      rcases lookup_set h with ⟨hkey, -⟩ | ⟨-, h⟩
      · exact absurd hkey.symm (hforeign name text ttl rfl loader)
      · exact h

/-- **Lists are fresh.**  Whatever a load returns at a time `t`, from the cache or from the API
server, the API server has answered with it before, at most the interval of its loader and the
delay of a load before `t`: with the profiles at most a minute, the namespaces half a minute, the
signer configuration ten seconds, and the signatures no more than the delay. -/
theorem loaded_fresh {start : ℤ}
    {actions : List (Action ℕ (Loader × Bool) (Except String ListText) Meanwhile)}
    (hmeets : Meets loads (Timely delay) { shared := { now := start } } actions)
    {i : ℕ} {loader : Loader} {t : ℤ} {text : String}
    (hreturned : (run loads { shared := { now := start } } actions).processes i =
      some (.returned loader t (some text))) :
    (run loads { shared := { now := start } } actions).shared.Answered loader.keyName text t
      (loader.interval + delay) := by
  have hcreate : ∀ (call : Loader × Bool) (sh : Clock), sh.Kept delay →
      (loads.create call).Knows delay sh := fun _ _ _ => trivial
  have hknows := (rely_guarantee (fun sh sh' => sh.answers ⊆ sh'.answers) (Clock.Kept delay)
    (Loading.Knows delay) (fun p sh sh' hsub h => h.mono hsub) hcreate ?_ ?_ ?_ ?_ hmeets).2
  · exact hknows i _ hreturned
  · intro sys j answer p hp hgood hsh hknows
    refine advance_fresh ?_ hsh hknows
    rintro loader u list rfl
    simpa only [Timely, hp] using hgood
  · intro sys e hgood hsh
    refine apply_fresh hsh ?_
    rintro name text ttl rfl
    exact hgood
  · intro loader obj hobj
    cases hobj
  · intro j p hp
    cases hp

end Freshness

/-- A load that takes a second to store the profiles, and one that finds them in the cache at the
last moment. -/
def lateLoad : List (Action ℕ (Loader × Bool) (Except String ListText) Meanwhile) :=
  [.spawn 0 (.rsp, true), .advance 0 (.error ""), .advance 0 (.ok ⟨"profiles", 1⟩),
    .environment (.passes 1000000000), .advance 0 (.error ""),
    .environment (.passes 60000000000), .spawn 1 (.rsp, true), .advance 1 (.error "")]

theorem loaded_fresh_late :
    (run loads { shared := { now := 0 } } lateLoad).processes 1 =
        some (.returned .rsp 61000000000 (some "profiles")) ∧
      (run loads { shared := { now := 0 } } lateLoad).shared.Answered Loader.rsp.keyName "profiles"
        61000000000 (Loader.rsp.interval + 1000000000) := by
  have hreturned : (run loads { shared := { now := 0 } } lateLoad).processes 1 =
      some (.returned .rsp 61000000000 (some "profiles")) := by
    rfl
  have hmeets : Meets loads (Timely 1000000000) { shared := { now := 0 } } lateLoad :=
    ⟨trivial, trivial, trivial, trivial, Int.le_refl _, trivial, trivial, trivial, trivial⟩
  exact ⟨hreturned, loaded_fresh hmeets hreturned⟩

end Shield
end IntegrityShield
