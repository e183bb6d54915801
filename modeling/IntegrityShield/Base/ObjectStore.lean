/-
# Clients of an object store

A store keeps objects under keys, and a client gets, creates, updates and
deletes them, one request at a time.  The store is shared: before each request
others may change it in any way, and any request may fail without an effect.
What the store makes of an object that is written to it (it sets defaults, it
keeps a status apart) is its own business too.

A client is a tree of requests (`Client`), each with what it goes on with for
every answer.  A session says what the others do at each turn, so a statement
about all sessions is one about all interleavings.  Everything a client does is
in its log: requests that a client never makes are not in it (`log_of_requests`),
and what neither the others nor the requests of a client disturb, a run keeps
(`run_invariant`).
-/

import Mathlib.Data.Nat.Notation
import Mathlib.Logic.Function.Basic
import Mathlib.Tactic.Common

namespace IntegrityShield
namespace ObjectStore

variable {κ : Type}

/-- The objects that are there. -/
abbrev Store (α : κ → Type) := ∀ k, Option (α k)

/-- Why a request failed, as far as clients tell it. -/
inductive Failure where
  | notFound
  | alreadyExists
  | other
deriving DecidableEq, Repr

/-- A request. -/
inductive Request (α : κ → Type) where
  | get (k : κ)
  | create (k : κ) (a : α k)
  | update (k : κ) (a : α k)
  | delete (k : κ)

variable {α : κ → Type} {β γ : Type}

namespace Request

/-- What a request is answered. -/
@[reducible] def Answer : Request α → Type
  | get k => Except Failure (α k)
  | create _ _ => Except Failure Unit
  | update _ _ => Except Failure Unit
  | delete _ => Except Failure Unit

/-- The answer to a request that does not get through. -/
def lost : (r : Request α) → r.Answer
  | get _ => .error .other
  | create _ _ => .error .other
  | update _ _ => .error .other
  | delete _ => .error .other

/-- The key that a request is about. -/
def key : Request α → κ
  | get k => k
  | create k _ => k
  | update k _ => k
  | delete k => k

/-- A request that does not change anything. -/
def isGet : Request α → Bool
  | get _ => true
  | create _ _ => false
  | update _ _ => false
  | delete _ => false

end Request

/-- What the store keeps when an object is written, by what was there. -/
structure Server (α : κ → Type) where
  persist : ∀ k, Option (α k) → α k → α k

/-- The effect of a request that gets through. -/
def Server.answer [DecidableEq κ] (srv : Server α) :
    (r : Request α) → Store α → r.Answer × Store α
  | .get k, store =>
      match store k with
      | some a => (.ok a, store)
      | none => (.error .notFound, store)
  | .create k a, store =>
      match store k with
      | some _ => (.error .alreadyExists, store)
      | none => (.ok (), Function.update store k (some (srv.persist k none a)))
  | .update k a, store =>
      match store k with
      | some old => (.ok (), Function.update store k (some (srv.persist k (some old) a)))
      | none => (.error .notFound, store)
  | .delete k, store =>
      match store k with
      | some _ => (.ok (), Function.update store k none)
      | none => (.error .notFound, store)

/-- What happens around one request: the others change the store before it, and
it may fail. -/
structure Turn (α : κ → Type) where
  others : Store α → Store α := id
  fails : Bool := false

/-- Nothing else happens, and the request gets through. -/
def Turn.Idle (t : Turn α) : Prop := t.fails = false ∧ ∀ store, t.others store = store

/-- A request with its answer. -/
abbrev Event (α : κ → Type) := (r : Request α) × r.Answer

/-- What a client runs against: the store, the turns to come, and the log of what
it has asked and been answered. -/
structure Session (α : κ → Type) where
  store : Store α
  turns : ℕ → Turn α
  log : List (Event α) := []

/-- The log shows an object. -/
def Found (k : κ) (p : α k → Prop) (log : List (Event α)) : Prop :=
  ∃ a, (⟨.get k, .ok a⟩ : Event α) ∈ log ∧ p a

theorem Found.mono {k : κ} {p q : α k → Prop} {log log' : List (Event α)} (h : Found k p log)
    (hlog : log ⊆ log') (hpq : ∀ a, p a → q a) : Found k q log' := by
  obtain ⟨a, ha, hp⟩ := h
  exact ⟨a, hlog ha, hpq a hp⟩

/-- A client: the value it ends with, or a request and what it goes on with. -/
inductive Client (α : κ → Type) (β : Type) where
  | done (b : β)
  | ask (r : Request α) (next : r.Answer → Client α β)

namespace Client

/-- One client after the other. -/
def bind : Client α β → (β → Client α γ) → Client α γ
  | .done b, f => f b
  | .ask r next, f => .ask r fun a => (next a).bind f

instance : Monad (Client α) where
  pure := .done
  bind := bind

/-- The client that makes one request. -/
def request (r : Request α) : Client α r.Answer := .ask r .done

def get (k : κ) : Client α (Except Failure (α k)) := request (.get k)
def create (k : κ) (a : α k) : Client α (Except Failure Unit) := request (.create k a)
def update (k : κ) (a : α k) : Client α (Except Failure Unit) := request (.update k a)
def delete (k : κ) : Client α (Except Failure Unit) := request (.delete k)

/-- Change an object if it is got, and create it otherwise. -/
def upsert (k : κ) (new : α k) (change : α k → α k) : Client α (Except Failure Unit) := do
  match ← get k with
  | .ok current => update k (change current)
  | .error _ => create k new

/-- The client makes a request. -/
def asks : Client α β → Bool
  | .done _ => false
  | .ask _ _ => true

theorem ne_pure_of_asks {p : Client α β} (h : p.asks = true) {b : β} : p ≠ pure b := by
  rintro rfl
  cases h

/-! ## What a client can ask -/

/-- Every request that a client can make, whatever it is answered. -/
inductive Requests (P : Request α → Prop) : Client α β → Prop where
  | done (b : β) : Requests P (.done b)
  | ask {r : Request α} {next : r.Answer → Client α β} (hr : P r)
      (hnext : ∀ a, Requests P (next a)) : Requests P (.ask r next)

variable {P Q : Request α → Prop}

theorem requests_pure (b : β) : Requests P (pure b : Client α β) := .done b

theorem requests_request {r : Request α} (h : P r) : Requests P (request r) :=
  .ask h fun _ => .done _

theorem requests_bind {p : Client α β} {f : β → Client α γ} (hp : Requests P p)
    (hf : ∀ b, Requests P (f b)) : Requests P (p >>= f) := by
  induction hp with
  | done b => exact hf b
  | ask hr _ ih => exact .ask hr ih

theorem requests_upsert {k : κ} {new : α k} {change : α k → α k}
    (h : ∀ r : Request α, r.key = k → P r) : Requests P (upsert k new change) := by
  refine requests_bind (requests_request (h _ rfl)) fun found => ?_
  cases found with
  | ok current => exact requests_request (h _ rfl)
  | error e => exact requests_request (h _ rfl)

theorem Requests.mono {p : Client α β} (hp : Requests P p) (h : ∀ r, P r → Q r) :
    Requests Q p := by
  induction hp with
  | done b => exact .done b
  | ask hr _ ih => exact .ask (h _ hr) ih

theorem requests_true (p : Client α β) : Requests (fun _ => True) p := by
  induction p with
  | done b => exact .done b
  | ask r next ih => exact .ask trivial ih

end Client

variable [DecidableEq κ]

namespace Server

variable (srv : Server α)

theorem answer_get_some {k : κ} {store : Store α} {a : α k} (h : store k = some a) :
    srv.answer (.get k) store = (.ok a, store) := by
  simp only [answer, h]

theorem answer_get_none {k : κ} {store : Store α} (h : store k = none) :
    srv.answer (.get k) store = (.error .notFound, store) := by
  simp only [answer, h]

theorem answer_isGet {r : Request α} (h : r.isGet = true) (store : Store α) :
    (srv.answer r store).2 = store := by
  cases r with
  | get k =>
      cases hk : store k with
      | none => rw [srv.answer_get_none hk]
      | some a => rw [srv.answer_get_some hk]
  | create k a => cases h
  | update k a => cases h
  | delete k => cases h

theorem answer_create_some {k : κ} {store : Store α} {old : α k} (h : store k = some old)
    (a : α k) : srv.answer (.create k a) store = (.error .alreadyExists, store) := by
  simp only [answer, h]

theorem answer_create_none {k : κ} {store : Store α} (h : store k = none) (a : α k) :
    srv.answer (.create k a) store =
      (.ok (), Function.update store k (some (srv.persist k none a))) := by
  simp only [answer, h]

theorem answer_update_some {k : κ} {store : Store α} {old : α k} (h : store k = some old)
    (a : α k) : srv.answer (.update k a) store =
      (.ok (), Function.update store k (some (srv.persist k (some old) a))) := by
  simp only [answer, h]

theorem answer_update_none {k : κ} {store : Store α} (h : store k = none) (a : α k) :
    srv.answer (.update k a) store = (.error .notFound, store) := by
  simp only [answer, h]

theorem answer_delete_some {k : κ} {store : Store α} {old : α k} (h : store k = some old) :
    srv.answer (.delete k) store = (.ok (), Function.update store k none) := by
  simp only [answer, h]

theorem answer_delete_none {k : κ} {store : Store α} (h : store k = none) :
    srv.answer (.delete k) store = (.error .notFound, store) := by
  simp only [answer, h]

/-- A request changes no other object than the one it is about. -/
theorem answer_of_ne (r : Request α) (store : Store α) {k : κ} (h : k ≠ r.key) :
    (srv.answer r store).2 k = store k := by
  cases r with
  | get k' => rw [srv.answer_isGet rfl]
  | create k' a =>
      cases hk : store k' with
      | none =>
          rw [srv.answer_create_none hk]
          exact Function.update_of_ne h _ _
      | some old => rw [srv.answer_create_some hk]
  | update k' a =>
      cases hk : store k' with
      | none => rw [srv.answer_update_none hk]
      | some old =>
          rw [srv.answer_update_some hk]
          exact Function.update_of_ne h _ _
  | delete k' =>
      cases hk : store k' with
      | none => rw [srv.answer_delete_none hk]
      | some old =>
          rw [srv.answer_delete_some hk]
          exact Function.update_of_ne h _ _

end Server

namespace Session

/-- The others have had their turn. -/
def wait (s : Session α) : Session α where
  store := (s.turns 0).others s.store
  turns n := s.turns (n + 1)
  log := s.log

/-- One request. -/
def ask (srv : Server α) (r : Request α) (s : Session α) : r.Answer × Session α :=
  if (s.turns 0).fails then
    (r.lost, { s.wait with log := s.log ++ [⟨r, r.lost⟩] })
  else
    ((srv.answer r s.wait.store).1, {
      s.wait with
      store := (srv.answer r s.wait.store).2
      log := s.log ++ [⟨r, (srv.answer r s.wait.store).1⟩] })

variable {srv : Server α}

@[simp] theorem ask_log (r : Request α) (s : Session α) :
    (s.ask srv r).2.log = s.log ++ [⟨r, (s.ask srv r).1⟩] := by
  unfold ask
  split <;> rfl

@[simp] theorem ask_turns (r : Request α) (s : Session α) (n : ℕ) :
    (s.ask srv r).2.turns n = s.turns (n + 1) := by
  unfold ask
  split <;> rfl

/-- A request that gets through. -/
theorem ask_of_not_fails {s : Session α} (h : (s.turns 0).fails = false) (srv : Server α)
    (r : Request α) :
    (s.ask srv r).1 = (srv.answer r s.wait.store).1 ∧
      (s.ask srv r).2.store = (srv.answer r s.wait.store).2 := by
  rw [ask, h]
  exact ⟨rfl, rfl⟩

/-- Either the request had no effect, or it got through. -/
theorem ask_store_of_ne (s : Session α) (srv : Server α) (r : Request α) {k : κ}
    (h : k ≠ r.key) : (s.ask srv r).2.store k = s.wait.store k := by
  unfold ask
  split
  · rfl
  · exact srv.answer_of_ne r _ h

theorem ask_store (s : Session α) (srv : Server α) (r : Request α) :
    (s.ask srv r).2.store = s.wait.store ∨
      (s.ask srv r).2.store = (srv.answer r s.wait.store).2 := by
  unfold ask
  split
  · exact Or.inl rfl
  · exact Or.inr rfl

theorem ask_get_eq_notFound {s : Session α} {k : κ}
    (h : (s.ask srv (.get k)).1 = .error .notFound) : (s.ask srv (.get k)).2.store k = none := by
  unfold ask at h ⊢
  split at h
  · cases h
  · rename_i hfails
    rw [if_neg hfails]
    cases hk : s.wait.store k with
    | none =>
        rw [srv.answer_get_none hk]
        exact hk
    | some b =>
        rw [srv.answer_get_some hk] at h
        cases h

theorem ask_delete_eq_ok {s : Session α} {k : κ} (h : (s.ask srv (.delete k)).1 = .ok ()) :
    (s.ask srv (.delete k)).2.store k = none := by
  unfold ask at h ⊢
  split at h
  · cases h
  · rename_i hfails
    rw [if_neg hfails]
    cases hk : s.wait.store k with
    | none =>
        rw [srv.answer_delete_none hk] at h
        cases h
    | some b =>
        rw [srv.answer_delete_some hk]
        exact Function.update_self ..

/-- A request in between nothing else happens. -/
theorem ask_of_idle {s : Session α} (h : (s.turns 0).Idle) (srv : Server α) (r : Request α) :
    (s.ask srv r).1 = (srv.answer r s.store).1 ∧
      (s.ask srv r).2.store = (srv.answer r s.store).2 := by
  have hwait : s.wait.store = s.store := h.2 s.store
  rw [← hwait]
  exact ask_of_not_fails h.1 srv r

/-- Every turn to come is such a one. -/
def Always (T : Turn α → Prop) (s : Session α) : Prop := ∀ n, T (s.turns n)

theorem Always.ask {T : Turn α → Prop} {s : Session α} (h : s.Always T) (srv : Server α)
    (r : Request α) :
    (s.ask srv r).2.Always T := by
  intro n
  rw [ask_turns]
  exact h (n + 1)

end Session

namespace Client

/-- A client with all its requests. -/
def run (srv : Server α) : Client α β → Session α → β × Session α
  | .done b, s => (b, s)
  | .ask r next, s => (next (s.ask srv r).1).run srv (s.ask srv r).2

variable {srv : Server α} {P : Request α → Prop}

@[simp] theorem run_pure (b : β) (s : Session α) : (pure b : Client α β).run srv s = (b, s) := rfl

@[simp] theorem run_get (k : κ) (s : Session α) : (get k).run srv s = s.ask srv (.get k) := rfl

@[simp] theorem run_create (k : κ) (a : α k) (s : Session α) :
    (create k a).run srv s = s.ask srv (.create k a) := rfl

@[simp] theorem run_update (k : κ) (a : α k) (s : Session α) :
    (update k a).run srv s = s.ask srv (.update k a) := rfl

@[simp] theorem run_delete (k : κ) (s : Session α) :
    (delete k).run srv s = s.ask srv (.delete k) := rfl

/-- The second client runs on what the first one has left. -/
@[simp] theorem run_bind (p : Client α β) (f : β → Client α γ) (s : Session α) :
    (p >>= f).run srv s = (f (p.run srv s).1).run srv (p.run srv s).2 := by
  induction p generalizing s with
  | done b => rfl
  | ask r next ih => exact ih _ _

/-- If nothing else happens, an object is there in the end. -/
theorem run_upsert_of_idle (k : κ) (new : α k) (change : α k → α k) {s : Session α}
    (h : s.Always Turn.Idle) (srv : Server α) :
    ((upsert k new change).run srv s).1 = .ok () ∧
      ((upsert k new change).run srv s).2.store =
        Function.update s.store k
          (some (srv.persist k (s.store k) ((s.store k).elim new change))) := by
  obtain ⟨hget, hstore⟩ := Session.ask_of_idle (h 0) srv (.get k)
  rw [srv.answer_isGet rfl] at hstore
  have hnext := (h.ask srv (.get k)) 0
  cases hk : s.store k with
  | none =>
      rw [srv.answer_get_none hk] at hget
      obtain ⟨hanswer, hcreated⟩ := Session.ask_of_idle hnext srv (.create k new)
      rw [hstore, srv.answer_create_none hk] at hanswer hcreated
      rw [upsert, run_bind, run_get, hget]
      exact ⟨hanswer, hcreated⟩
  | some a =>
      rw [srv.answer_get_some hk] at hget
      obtain ⟨hanswer, hupdated⟩ := Session.ask_of_idle hnext srv (.update k (change a))
      rw [hstore, srv.answer_update_some hk] at hanswer hupdated
      rw [upsert, run_bind, run_get, hget]
      exact ⟨hanswer, hupdated⟩

/-! ## What is in the log -/

/-- The log gets longer, by requests that the client can make. -/
theorem log_of_requests {p : Client α β} (hp : Requests P p) (srv : Server α) (s : Session α) :
    ∃ new, (p.run srv s).2.log = s.log ++ new ∧ ∀ e ∈ new, P e.1 := by
  induction hp generalizing s with
  | done b => exact ⟨[], (List.append_nil _).symm, fun _ he => absurd he List.not_mem_nil⟩
  | @ask r next hr _ ih =>
      obtain ⟨new, hnew, hall⟩ := ih (s.ask srv r).1 (s.ask srv r).2
      refine ⟨⟨r, (s.ask srv r).1⟩ :: new, ?_, List.forall_mem_cons.2 ⟨hr, hall⟩⟩
      rw [run, hnew, Session.ask_log, List.append_assoc, List.singleton_append]

theorem subset_log (p : Client α β) (srv : Server α) (s : Session α) :
    s.log ⊆ (p.run srv s).2.log := by
  obtain ⟨new, hnew, _⟩ := log_of_requests (requests_true p) srv s
  exact hnew ▸ List.subset_append_left s.log new

/-- What is new in the log comes after all that was in it. -/
theorem log_before {p : Client α β} {s : Session α} {before after : List (Event α)} {e : Event α}
    (hlog : (p.run srv s).2.log = before ++ e :: after) (he : e ∉ s.log) :
    s.log ⊆ before := by
  obtain ⟨new, hnew, _⟩ := log_of_requests (requests_true p) srv s
  rw [hnew, List.append_eq_append_iff] at hlog
  obtain ⟨between, hbefore, _⟩ | ⟨between, hmem, hrest⟩ := hlog
  · exact hbefore ▸ List.subset_append_left s.log between
  · cases between with
    | nil => exact fun x hx => by rwa [hmem, List.append_nil] at hx
    | cons x rest =>
        have hx : e = x := (List.cons.inj hrest).1
        rw [hmem, hx] at he
        exact absurd (List.mem_append_right _ (List.mem_cons_self ..)) he

theorem mem_log_ask (srv : Server α) (r : Request α) (s : Session α) :
    (⟨r, (s.ask srv r).1⟩ : Event α) ∈ (s.ask srv r).2.log := by
  rw [Session.ask_log]
  exact List.mem_append_right _ (List.mem_singleton_self _)

/-! ## What a run keeps -/

theorem always_run {T : Turn α → Prop} (p : Client α β) {s : Session α} (h : s.Always T) :
    (p.run srv s).2.Always T := by
  induction p generalizing s with
  | done b => exact h
  | ask r next ih => exact ih _ (h.ask srv r)

/-- What neither the others nor the requests of a client disturb. -/
theorem run_invariant {I : Store α → Prop} {T : Turn α → Prop} {p : Client α β}
    (hp : Requests P p) (hothers : ∀ t, T t → ∀ store, I store → I (t.others store))
    (hanswer : ∀ r, P r → ∀ store, I store → I (srv.answer r store).2) {s : Session α}
    (hturns : s.Always T) (hI : I s.store) : I (p.run srv s).2.store := by
  induction hp generalizing s with
  | done b => exact hI
  | @ask r next hr _ ih =>
      refine ih _ (hturns.ask srv r) ?_
      have hwait : I s.wait.store := hothers _ (hturns 0) _ hI
      rcases s.ask_store srv r with h | h
      · exact h ▸ hwait
      · exact h ▸ hanswer r hr _ hwait

/-- A client leaves alone what it does not write. -/
theorem store_of_requests {p : Client α β} {k : κ}
    (hp : p.Requests fun r => r.isGet = true ∨ r.key ≠ k) {s : Session α}
    (halone : s.Always fun t => ∀ store, t.others store k = store k) :
    (p.run srv s).2.store k = s.store k := by
  refine run_invariant (I := fun store => store k = s.store k) hp
    (fun t ht store h => (ht store).trans h) (fun r hr store h => ?_) halone rfl
  rcases hr with hget | hne
  · rw [srv.answer_isGet hget]
    exact h
  · rw [srv.answer_of_ne r store hne.symm]
    exact h

end Client
end ObjectStore
end IntegrityShield
