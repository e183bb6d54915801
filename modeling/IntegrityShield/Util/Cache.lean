/-
# The in-memory cache

`cache.go` keeps the lists that the loaders get from the API server for some seconds.
An object is dropped in two places: `Get` hides one whose time is over, and every `Set`,
of whatever name, first rebuilds the map without the expired entries.

A cache without the sweep is easier to describe: each name holds what was written to it
last (`Written`).  The cache refines it (`Refines`): an entry that the sweep took away had
expired by then, so no later `Get` would have returned it.  `get_run` reads off what
a `Get` returns after any sequence of calls whose clock does not run backwards.

Times are nanoseconds of the clock, and the lock makes each call atomic, so the calls of
several callers are one list in the order in which they took the lock.
-/

import IntegrityShield.Base.FlatMap
import Mathlib.Tactic.Common

namespace IntegrityShield
namespace Cache

variable {α : Type*}

/-- `time.Second * 5`. -/
def defaultCacheDuration : Int := 1000000000 * 5

/-- A cached object.  An `interface{}` is nil or a value of some type. -/
structure CachedObject (α : Type*) where
  rawObject : Option α
  created : Int
  expired : Int
  duration : Int

/-- `NewCachedObject`. -/
def newCachedObject (object : Option α) (now : Int) (ttl : Option Int) : CachedObject α :=
  let duration := ttl.getD defaultCacheDuration
  { rawObject := object, created := now, expired := now + duration, duration := duration }

/-- `IsExpired`, at the time it reads from the clock. -/
def CachedObject.isExpired (self : CachedObject α) (now : Int) : Bool := decide (self.expired < now)

end Cache

/-- `Cache`, without its lock. -/
structure Cache (α : Type*) where
  data : GoMap String (Cache.CachedObject α)

namespace Cache

variable {α : Type*}

/-- `NewCache`. -/
def newCache : Cache α := ⟨∅⟩

/-- `deleteKey`: the entries of the map without the given keys, written into a new map. -/
def deleteKey (m : GoMap String (CachedObject α)) (delKeys : List String) :
    GoMap String (CachedObject α) :=
  GoMap.writes ∅ ((m.entries.filter fun e => !delKeys.contains e.1).map fun e => (e.1, e.2))

/-- `clearExpiredItem`.  Every entry is tested at a time of its own. -/
def clearExpiredItem (self : Cache α) (reading : String → Int) : Cache α :=
  let delKeys := (self.data.entries.filter fun e => e.2.isExpired (reading e.1)).map fun e => e.1
  ⟨deleteKey self.data delKeys⟩

/-- `Set`: the sweep, then the new entry with its own reading of the clock. -/
def set (self : Cache α) (name : String) (object : Option α) (ttl : Option Int)
    (reading : String → Int) (now : Int) : Cache α :=
  ⟨(self.clearExpiredItem reading).data.insert name (newCachedObject object now ttl)⟩

/-- `Unset`. -/
def unset (self : Cache α) (name : String) : Cache α := ⟨deleteKey self.data [name]⟩

/-- `Get`. -/
def get (self : Cache α) (name : String) (now : Int) : Option α :=
  match self.data.lookup name with
  | none => none
  | some obj => if obj.expired < now then none else obj.rawObject

/-- `GetString`, with the type assertion on what `Get` returns. -/
def getString (self : Cache α) (asString : α → Option String) (name : String) (now : Int) :
    String :=
  match self.get name now with
  | none => ""
  | some obj => (asString obj).getD ""

/-- `KeyExists`. -/
def keyExists (self : Cache α) (name : String) (now : Int) : Bool := (self.get name now).isSome

/-! ## Runs -/

/-- A call, with what it reads from the clock. -/
inductive Call (α : Type*) where
  | set (name : String) (object : Option α) (ttl : Option Int) (reading : String → Int) (now : Int)
  | unset (name : String)
  | get (name : String) (now : Int)

/-- What a call leaves. -/
def step (self : Cache α) : Call α → Cache α
  | .set name object ttl reading now => self.set name object ttl reading now
  | .unset name => self.unset name
  | .get _ _ => self

/-- What a sequence of calls leaves. -/
def run (self : Cache α) (calls : List (Call α)) : Cache α := calls.foldl step self

/-- The clock does not run backwards: every reading of a call is at or after those of the
calls before it, and a `Set` reads the time of its entry after its sweep. -/
def Clocked : Int → List (Call α) → Prop
  | _, [] => True
  | since, .set _ _ _ reading now :: rest =>
      (∀ key, since ≤ reading key ∧ reading key ≤ now) ∧ Clocked now rest
  | since, .unset _ :: rest => Clocked since rest
  | since, .get _ now :: rest => since ≤ now ∧ Clocked now rest

/-- The latest time that a sequence of calls has read. -/
def lastReading : Int → List (Call α) → Int
  | since, [] => since
  | _, .set _ _ _ _ now :: rest => lastReading now rest
  | since, .unset _ :: rest => lastReading since rest
  | _, .get _ now :: rest => lastReading now rest

theorem clocked_append {since : Int} {calls more : List (Call α)} :
    Clocked since (calls ++ more) ↔
      Clocked since calls ∧ Clocked (lastReading since calls) more := by
  induction calls generalizing since with
  | nil => exact ⟨fun h => ⟨trivial, h⟩, And.right⟩
  | cons call rest ih =>
      cases call with
      | set name object ttl reading now => exact (and_congr_right fun _ => ih).trans and_assoc.symm
      | unset name => exact ih
      | get name now => exact (and_congr_right fun _ => ih).trans and_assoc.symm

/-! ## The cache that never sweeps -/

/-- What was written last to each name. -/
abbrev Written (α : Type*) := String → Option (CachedObject α)

/-- A call on it. -/
def Written.step (w : Written α) : Call α → Written α
  | .set name object ttl _ now => Function.update w name (some (newCachedObject object now ttl))
  | .unset name => Function.update w name none
  | .get _ _ => w

/-- What it returns. -/
def Written.get (w : Written α) (name : String) (now : Int) : Option α :=
  match w name with
  | none => none
  | some obj => if obj.expired < now then none else obj.rawObject

/-- The cache holds what was written last, apart from what had expired. -/
def Refines (since : Int) (cache : Cache α) (w : Written α) : Prop :=
  ∀ name, cache.data.lookup name = w name ∨
    (cache.data.lookup name = none ∧ ∃ obj, w name = some obj ∧ obj.expired < since)

theorem lookup_deleteKey (m : GoMap String (CachedObject α)) (delKeys : List String)
    (name : String) :
    (deleteKey m delKeys).lookup name = if name ∈ delKeys then none else m.lookup name := by
  rw [deleteKey, GoMap.lookup_writes,
    GoMap.lastAt_filter_entries m fun key => !delKeys.contains key]
  by_cases h : name ∈ delKeys
  · rw [if_pos h, if_neg (by simpa using h)]
  · rw [if_neg h, if_pos (by simpa using h)]

/-- The sweep keeps an entry, or takes away one whose time is over. -/
theorem lookup_clearExpiredItem (cache : Cache α) (reading : String → Int) (name : String) :
    (cache.clearExpiredItem reading).data.lookup name = cache.data.lookup name ∨
    ((cache.clearExpiredItem reading).data.lookup name = none ∧
      ∃ obj, cache.data.lookup name = some obj ∧ obj.expired < reading name) := by
  rw [clearExpiredItem, lookup_deleteKey]
  split
  · rename_i hmem
    obtain ⟨⟨key, obj⟩, he, rfl⟩ := List.mem_map.1 hmem
    obtain ⟨hentry, hexpired⟩ := List.mem_filter.1 he
    exact .inr ⟨rfl, obj, AList.mem_lookup_iff.2 hentry, of_decide_eq_true hexpired⟩
  · exact .inl rfl

theorem Refines.mono {since later : Int} {cache : Cache α} {w : Written α}
    (h : Refines since cache w) (hle : since ≤ later) : Refines later cache w := by
  intro name
  rcases h name with hsame | ⟨hnone, obj, hobj, hexpired⟩
  · exact .inl hsame
  · exact .inr ⟨hnone, obj, hobj, hexpired.trans_le hle⟩

/-- Sweeping keeps the refinement. -/
theorem Refines.clearExpiredItem {since later : Int} {cache : Cache α} {w : Written α}
    (h : Refines since cache w) (hle : since ≤ later) {reading : String → Int}
    (hreading : ∀ key, reading key ≤ later) : Refines later (cache.clearExpiredItem reading) w := by
  intro name
  rcases lookup_clearExpiredItem cache reading name with hkept | ⟨hgone, obj, hobj, hexpired⟩
  · rw [hkept]
    exact h.mono hle name
  · refine .inr ⟨hgone, ?_⟩
    rcases h name with hsame | ⟨hnone, _⟩
    · exact ⟨obj, hsame ▸ hobj, hexpired.trans_le (hreading name)⟩
    · rw [hnone] at hobj
      cases hobj

/-- One call. -/
theorem Refines.step {since : Int} {cache : Cache α} {w : Written α} (h : Refines since cache w)
    {call : Call α} (hclock : Clocked since [call]) :
    Refines (lastReading since [call]) (cache.step call) (w.step call) := by
  cases call with
  | set name object ttl reading now =>
      have hle : since ≤ now := (hclock.1 name).1.trans (hclock.1 name).2
      have hswept := h.clearExpiredItem hle fun key => (hclock.1 key).2
      intro key
      by_cases hkey : key = name
      · subst hkey
        left
        simp only [Cache.step, Cache.set, Written.step, AList.lookup_insert, Function.update_self]
      · simp only [Cache.step, Cache.set, Written.step, AList.lookup_insert_ne hkey,
          Function.update_of_ne hkey]
        exact hswept key
  | unset name =>
      intro key
      by_cases hkey : key = name
      · subst hkey
        left
        simp only [Cache.step, Cache.unset, Written.step, lookup_deleteKey, List.mem_singleton,
          if_true, Function.update_self]
      · simp only [Cache.step, Cache.unset, Written.step, lookup_deleteKey, List.mem_singleton,
          hkey, if_false, Function.update_of_ne hkey]
        exact h key
  | get name now => exact h.mono hclock.1

/-- Any sequence of calls. -/
theorem Refines.run {calls : List (Call α)} {since : Int} {cache : Cache α} {w : Written α}
    (h : Refines since cache w) (hclock : Clocked since calls) :
    Refines (lastReading since calls) (cache.run calls) (calls.foldl Written.step w) := by
  induction calls generalizing since cache w with
  | nil => exact h
  | cons call rest ih =>
      have hsplit := clocked_append.1 (List.singleton_append (x := call) ▸ hclock)
      have hlast : lastReading since (call :: rest) =
          lastReading (lastReading since [call]) rest := by
        cases call <;> rfl
      rw [hlast]
      exact ih (h.step hsplit.1) hsplit.2

theorem refines_newCache (since : Int) : Refines since (newCache : Cache α) fun _ => none :=
  fun _ => .inl rfl

/-- What has been swept would not be returned. -/
theorem Refines.get {since now : Int} {cache : Cache α} {w : Written α} (h : Refines since cache w)
    (hnow : since ≤ now) (name : String) : cache.get name now = w.get name now := by
  rcases h name with hsame | ⟨hnone, obj, hobj, hexpired⟩
  · rw [Cache.get, Written.get, hsame]
  · rw [Cache.get, Written.get, hnone, hobj]
    exact (if_pos (hexpired.trans_le hnow)).symm

/-! ## What a `Get` returns -/

/-- The calls that write to a name. -/
def Call.writes (name : String) : Call α → Bool
  | .set key _ _ _ _ => key == name
  | .unset key => key == name
  | .get _ _ => false

/-- The last call that wrote to a name. -/
def lastWrite (name : String) (calls : List (Call α)) : Option (Call α) :=
  calls.reverse.find? (Call.writes name)

/-- What `Get` is to return: the object of the last `Set` of the name, unless an `Unset`
followed or the time is over. -/
def cached (name : String) (calls : List (Call α)) (t : Int) : Option α :=
  match lastWrite name calls with
  | some (.set _ object ttl _ now) =>
      if t ≤ now + ttl.getD defaultCacheDuration then object else none
  | _ => none

theorem lastWrite_append (name : String) (calls : List (Call α)) (call : Call α) :
    lastWrite name (calls ++ [call]) =
      if call.writes name then some call else lastWrite name calls := by
  rw [lastWrite, List.reverse_append, List.reverse_singleton, List.singleton_append,
    List.find?_cons]
  cases call.writes name <;> rfl

/-- Without the sweep, a name holds what its last writing call left. -/
theorem written_eq (name : String) (calls : List (Call α)) :
    (calls.foldl Written.step fun _ => none) name =
      match lastWrite name calls with
      | some (.set _ object ttl _ now) => some (newCachedObject object now ttl)
      | _ => none := by
  induction calls using List.reverseRecOn with
  | nil => rfl
  | append_singleton calls call ih =>
      rw [List.foldl_append, List.foldl_cons, List.foldl_nil, lastWrite_append]
      cases call with
      | set key object ttl reading now =>
          by_cases hkey : key = name
          · simp [Written.step, Call.writes, hkey]
          · simpa [Written.step, Call.writes, hkey, Function.update_of_ne (Ne.symm hkey)] using ih
      | unset key =>
          by_cases hkey : key = name
          · simp [Written.step, Call.writes, hkey]
          · simpa [Written.step, Call.writes, hkey, Function.update_of_ne (Ne.symm hkey)] using ih
      | get key now => simpa [Written.step, Call.writes] using ih

theorem written_get (name : String) (calls : List (Call α)) (t : Int) :
    Written.get (calls.foldl Written.step fun _ => none) name t = cached name calls t := by
  rw [Written.get, written_eq, cached]
  cases lastWrite name calls with
  | none => rfl
  | some call =>
      cases call with
      | set key object ttl reading now =>
          have hexpired : (newCachedObject object now ttl).expired =
              now + ttl.getD defaultCacheDuration := rfl
          simp only [hexpired, ← not_le, ite_not]
          rfl
      | unset key => rfl
      | get key now => rfl

/-- What the cache returns at a time that is not before any of its readings. -/
theorem get_newCache_run {start t : Int} {calls : List (Call α)} (hclock : Clocked start calls)
    (ht : lastReading start calls ≤ t) (name : String) :
    (newCache.run calls).get name t = cached name calls t := by
  rw [((refines_newCache start).run hclock).get ht, written_get]

/-- Leaving calls out does not make the clock run backwards. -/
theorem Clocked.filter {start t : Int} {calls : List (Call α)} (p : Call α → Bool)
    (hclock : Clocked start calls) (ht : lastReading start calls ≤ t) :
    ∀ {earlier : Int}, earlier ≤ start → Clocked earlier (calls.filter p) ∧
      lastReading earlier (calls.filter p) ≤ t := by
  induction calls generalizing start with
  | nil => exact fun hle => ⟨trivial, hle.trans ht⟩
  | cons call rest ih =>
      intro earlier hle
      cases call with
      | set key object ttl reading now =>
          obtain ⟨hread, hrest⟩ := hclock
          rw [List.filter_cons]
          split
          · have hnow := ih hrest ht le_rfl
            exact ⟨⟨fun k => ⟨hle.trans (hread k).1, (hread k).2⟩, hnow.1⟩, hnow.2⟩
          · exact ih hrest ht (hle.trans ((hread key).1.trans (hread key).2))
      | unset key =>
          rw [List.filter_cons]
          have hrest : Clocked start rest := hclock
          split
          · exact ih hrest ht hle
          · exact ih hrest ht hle
      | get key now =>
          obtain ⟨hnow, hrest⟩ := hclock
          rw [List.filter_cons]
          split
          · exact ⟨⟨hle.trans hnow, (ih hrest ht le_rfl).1⟩, (ih hrest ht le_rfl).2⟩
          · exact ih hrest ht (hle.trans hnow)

theorem cached_filter (name : String) (calls : List (Call α)) (t : Int) :
    cached name (calls.filter (Call.writes name)) t = cached name calls t := by
  have hlast : lastWrite name (calls.filter (Call.writes name)) = lastWrite name calls := by
    rw [lastWrite, ← List.filter_reverse, List.find?_filter, lastWrite]
    congr 1
    funext call
    cases call.writes name <;> rfl
  rw [cached, hlast, cached]

/-- **The cache returns what was set last**, for as long as its time has not run out.  Calls
on other names make no difference to it, and neither does a sweep by the time of the `Get`. -/
theorem get_eq_cached (start : Int) (before : List (Call α)) (name : String) (t : Int)
    (hclock : Clocked start (before ++ [.get name t])) :
    (newCache.run before).get name t = cached name before t ∧
    (newCache.run (before.filter (Call.writes name))).get name t =
      (newCache.run before).get name t ∧
    ∀ reading : String → Int, (∀ key, reading key ≤ t) →
      ((newCache.run before).clearExpiredItem reading).get name t =
        (newCache.run before).get name t := by
  obtain ⟨hbefore, hget⟩ := clocked_append.1 hclock
  have ht : lastReading start before ≤ t := hget.1
  have hall := get_newCache_run hbefore ht name
  obtain ⟨hown, htown⟩ := hbefore.filter (Call.writes name) ht le_rfl
  refine ⟨hall, ?_, fun reading hreading => ?_⟩
  · rw [get_newCache_run hown htown, cached_filter, hall]
  · have hrun := (refines_newCache start).run hbefore
    rw [(hrun.clearExpiredItem ht hreading).get le_rfl, hrun.get ht]

/-- An entry of one name expires and is swept by a `Set` of another one, which is still
returned at the last moment of its time. -/
theorem get_eq_cached_swept :
    (newCache.run [.set "RSPLoader/list" (some "old") (some 2) (fun _ => 0) 0,
      .set "NamespaceLoader/list" (some "new") none (fun _ => 3) 3]).get
        "NamespaceLoader/list" 5000000003 = some "new" := by
  have hclock : Clocked 0 ([.set "RSPLoader/list" (some "old") (some 2) (fun _ => 0) 0,
      .set "NamespaceLoader/list" (some "new") none (fun _ => 3) 3] ++
        [.get "NamespaceLoader/list" 5000000003]) := by
    exact ⟨fun _ => ⟨le_rfl, le_rfl⟩, fun _ => ⟨Int.natCast_nonneg 3, le_rfl⟩, by decide, trivial⟩
  rw [(get_eq_cached 0 _ _ _ hclock).1]
  decide

end Cache
end IntegrityShield
