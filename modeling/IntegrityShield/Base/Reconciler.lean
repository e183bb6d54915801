/-
# Reconcilers

A reconciler is called again and again, and each pass brings the store a bit
nearer to what is wanted: it goes through its steps in order, and the first one
that has something to create ends the pass, to be called again.

`ensure` is such a step for one object: create it if it is missing, repair it if
it is not as wanted.  `discard` removes one.  A pass that ends well has seen, step
by step, what each step looks for (`inOrder_split`).  If no request fails and the
others leave the wanted objects alone, then every pass settles one more step, and
what is settled stays so (`settled_take_succ`), so that as many passes as there
are steps are enough (`settled_passes`).
-/

import IntegrityShield.Base.Fault
import IntegrityShield.Base.ObjectStore

namespace IntegrityShield
namespace Reconciler

open ObjectStore

/-- How a step ends: with nothing more to do, to be called again, with an error, or
not at all. -/
inductive Outcome where
  | proceed
  | requeue
  | failed
  | fault (f : Fault)
deriving DecidableEq

variable {κ : Type} {α : κ → Type} {β : Type}

namespace Outcome

/-- The outcome after an attempt to create an object; if another one was faster, that is for
the next pass to see. -/
def ofCreate : Except Failure Unit → Outcome
  | .ok () => requeue
  | .error .alreadyExists => requeue
  | .error _ => failed

/-- The outcome after an update or a deletion. -/
def ofWrite (again : Outcome) : Except Failure Unit → Outcome
  | .ok () => again
  | .error _ => failed

/-- There is nothing more to do. -/
def isProceed (outcome : Outcome) : Bool := outcome == proceed

theorem isProceed_iff {outcome : Outcome} : outcome.isProceed = true ↔ outcome = proceed :=
  beq_iff_eq

/-- Nothing went wrong. -/
def isFine (outcome : Outcome) : Bool := outcome == proceed || outcome == requeue

theorem ne_failed_of_isFine {outcome : Outcome} (h : outcome.isFine = true) : outcome ≠ failed := by
  rintro rfl
  cases h

end Outcome

/-- Create an object that is missing, and repair one that is not as wanted; after a
repair the step ends with `again`. -/
def ensure (k : κ) (expected : α k) (repair : α k → Go (Option (α k))) (again : Outcome) :
    Client α Outcome := do
  match ← Client.get k with
  | .ok found =>
      match repair found with
      | .ok none => return .proceed
      | .ok (some new) => return .ofWrite again (← Client.update k new)
      | .error f => return .fault f
  | .error .notFound => return .ofCreate (← Client.create k expected)
  | .error _ => return .failed

/-- Delete an object; one that is missing is as good as deleted. -/
def discard (k : κ) : Client α Outcome := do
  match ← Client.get k with
  | .ok _ => return .ofWrite .requeue (← Client.delete k)
  | .error .notFound => return .requeue
  | .error _ => return .failed

/-- One step after the other, as long as they end with an outcome to go on after. -/
def inOrder (goOn : Outcome → Bool) : List (Client α Outcome) → Client α Outcome
  | [] => return .proceed
  | p :: ps => do
      let outcome ← p
      if goOn outcome then inOrder goOn ps else return outcome

/-! ## What the steps ask -/

section Requests

variable {P : Request α → Prop}

theorem requests_ensure {k : κ} {expected : α k} {repair : α k → Go (Option (α k))}
    {again : Outcome}
    (hget : P (.get k)) (hcreate : P (.create k expected))
    (hupdate : ∀ a new, repair a = .ok (some new) → P (.update k new)) :
    (ensure k expected repair again).Requests P := by
  refine Client.requests_bind (Client.requests_request hget) fun found => ?_
  cases found with
  | ok a =>
      rcases hrepair : repair a with f | (_ | new)
      · simp only [hrepair]
        exact Client.requests_pure _
      · simp only [hrepair]
        exact Client.requests_pure _
      · simp only [hrepair]
        exact Client.requests_bind (Client.requests_request (hupdate a new hrepair))
          fun _ => Client.requests_pure _
  | error e =>
      cases e with
      | notFound =>
          exact Client.requests_bind (Client.requests_request hcreate)
            fun _ => Client.requests_pure _
      | alreadyExists => exact Client.requests_pure _
      | other => exact Client.requests_pure _

theorem requests_discard {k : κ} (hget : P (.get k)) (hdelete : P (.delete k)) :
    (discard k).Requests P := by
  refine Client.requests_bind (Client.requests_request hget) fun found => ?_
  cases found with
  | ok a =>
      exact Client.requests_bind (Client.requests_request hdelete) fun _ => Client.requests_pure _
  | error e => cases e <;> exact Client.requests_pure _

theorem requests_inOrder {goOn : Outcome → Bool} {ps : List (Client α Outcome)}
    (h : ∀ p ∈ ps, p.Requests P) : (inOrder goOn ps).Requests P := by
  induction ps with
  | nil => exact Client.requests_pure _
  | cons p ps ih =>
      refine Client.requests_bind (h p (List.mem_cons_self ..)) fun outcome => ?_
      split
      · exact ih fun q hq => h q (List.mem_cons_of_mem _ hq)
      · exact Client.requests_pure _

end Requests

variable [DecidableEq κ] {srv : Server α} {s : Session α}

/-! ## Single steps -/

section Ensure

variable {k : κ} {expected : α k} {repair : α k → Go (Option (α k))} {again : Outcome}

theorem run_ensure_found {a : α k} (hget : (s.ask srv (.get k)).1 = .ok a)
    (hrepair : repair a = .ok none) :
    (ensure k expected repair again).run srv s = (.proceed, (s.ask srv (.get k)).2) := by
  simp only [ensure, Client.run_bind, Client.run_get, hget, hrepair, Client.run_pure]

theorem run_ensure_repair {a new : α k} (hget : (s.ask srv (.get k)).1 = .ok a)
    (hrepair : repair a = .ok (some new)) :
    (ensure k expected repair again).run srv s =
      (.ofWrite again ((s.ask srv (.get k)).2.ask srv (.update k new)).1,
        ((s.ask srv (.get k)).2.ask srv (.update k new)).2) := by
  simp only [ensure, Client.run_bind, Client.run_get, hget, hrepair, Client.run_update,
    Client.run_pure]

theorem run_ensure_fault {a : α k} {f : Fault} (hget : (s.ask srv (.get k)).1 = .ok a)
    (hrepair : repair a = .error f) :
    (ensure k expected repair again).run srv s = (.fault f, (s.ask srv (.get k)).2) := by
  simp only [ensure, Client.run_bind, Client.run_get, hget, hrepair, Client.run_pure]

theorem run_ensure_notFound (hget : (s.ask srv (.get k)).1 = .error .notFound) :
    (ensure k expected repair again).run srv s =
      (.ofCreate ((s.ask srv (.get k)).2.ask srv (.create k expected)).1,
        ((s.ask srv (.get k)).2.ask srv (.create k expected)).2) := by
  simp only [ensure, Client.run_bind, Client.run_get, hget, Client.run_create, Client.run_pure]

theorem run_ensure_error {e : Failure} (hget : (s.ask srv (.get k)).1 = .error e)
    (he : e ≠ .notFound) :
    (ensure k expected repair again).run srv s = (.failed, (s.ask srv (.get k)).2) := by
  cases e with
  | notFound => exact absurd rfl he
  | alreadyExists => simp only [ensure, Client.run_bind, Client.run_get, hget, Client.run_pure]
  | other => simp only [ensure, Client.run_bind, Client.run_get, hget, Client.run_pure]

/-- A step that has nothing more to do has found the object, and has created nothing. -/
theorem ensure_proceed (h : ((ensure k expected repair again).run srv s).1 = .proceed) :
    ∃ new, ((ensure k expected repair again).run srv s).2.log = s.log ++ new ∧
      Found k (fun a => repair a = .ok none ∨ again = .proceed) new ∧
      ∀ e ∈ new, e.1 = .get k ∨
        again = .proceed ∧ ∃ a b, repair a = .ok (some b) ∧ e.1 = .update k b := by
  cases hget : (s.ask srv (.get k)).1 with
  | ok a =>
      have hlog : (s.ask srv (.get k)).2.log = s.log ++ [⟨.get k, .ok a⟩] := by
        rw [Session.ask_log, hget]
      rcases hrepair : repair a with f | (_ | new)
      · rw [run_ensure_fault hget hrepair] at h
        cases h
      · rw [run_ensure_found hget hrepair]
        exact ⟨_, hlog, ⟨a, List.mem_singleton_self _, Or.inl hrepair⟩,
          List.forall_mem_singleton.2 (Or.inl rfl)⟩
      · rw [run_ensure_repair hget hrepair] at h ⊢
        have hagain : again = .proceed := by
          generalize ((s.ask srv (.get k)).2.ask srv (.update k new)).1 = answer at h
          cases answer with
          | ok u => exact h
          | error e => cases h
        rw [Session.ask_log, hlog, List.append_assoc]
        refine ⟨_, rfl, ⟨a, List.mem_cons_self .., Or.inr hagain⟩, ?_⟩
        exact List.forall_mem_cons.2 ⟨Or.inl rfl,
          List.forall_mem_singleton.2 (Or.inr ⟨hagain, a, new, hrepair, rfl⟩)⟩
  | error e =>
      by_cases he : e = .notFound
      · subst he
        rw [run_ensure_notFound hget] at h
        generalize ((s.ask srv (.get k)).2.ask srv (.create k expected)).1 = answer at h
        rcases answer with e | _
        · cases e <;> cases h
        · cases h
      · rw [run_ensure_error hget he] at h
        cases h

end Ensure

section Discard

variable {k : κ}

/-- A deletion that has not failed has seen that the object is missing, or has deleted it. -/
theorem discard_log (h : ((discard k).run srv s).1 ≠ .failed) :
    (⟨.get k, .error .notFound⟩ : Event α) ∈ ((discard k).run srv s).2.log ∨
      (⟨.delete k, .ok ()⟩ : Event α) ∈ ((discard k).run srv s).2.log := by
  have hmem := Client.mem_log_ask srv (.get k) s
  cases hget : (s.ask srv (.get k)).1 with
  | ok a =>
      simp only [discard, Client.run_bind, Client.run_get, hget, Client.run_delete,
        Client.run_pure] at h ⊢
      right
      have hmem := Client.mem_log_ask srv (.delete k) (s.ask srv (.get k)).2
      cases hdelete : ((s.ask srv (.get k)).2.ask srv (.delete k)).1 with
      | ok u =>
          rw [hdelete] at hmem
          exact hmem
      | error e =>
          rw [hdelete] at h
          exact absurd rfl h
  | error e =>
      cases e with
      | notFound =>
          simp only [discard, Client.run_bind, Client.run_get, hget, Client.run_pure]
          rw [hget] at hmem
          exact Or.inl hmem
      | alreadyExists =>
          simp only [discard, Client.run_bind, Client.run_get, hget, Client.run_pure] at h
          exact absurd rfl h
      | other =>
          simp only [discard, Client.run_bind, Client.run_get, hget, Client.run_pure] at h
          exact absurd rfl h

/-- A deletion that has not failed leaves no object. -/
theorem discard_store (h : ((discard k).run srv s).1 ≠ .failed) :
    ((discard k).run srv s).2.store k = none := by
  cases hget : (s.ask srv (.get k)).1 with
  | ok a =>
      simp only [discard, Client.run_bind, Client.run_get, hget, Client.run_delete,
        Client.run_pure] at h ⊢
      cases hdelete : ((s.ask srv (.get k)).2.ask srv (.delete k)).1 with
      | ok u => exact Session.ask_delete_eq_ok hdelete
      | error e =>
          rw [hdelete] at h
          exact absurd rfl h
  | error e =>
      cases e with
      | notFound =>
          simp only [discard, Client.run_bind, Client.run_get, hget, Client.run_pure]
          exact Session.ask_get_eq_notFound hget
      | alreadyExists =>
          simp only [discard, Client.run_bind, Client.run_get, hget, Client.run_pure] at h
          exact absurd rfl h
      | other =>
          simp only [discard, Client.run_bind, Client.run_get, hget, Client.run_pure] at h
          exact absurd rfl h

/-- When no request fails and the others leave the object alone, it is deleted. -/
theorem run_discard (hthrough : s.Always fun t => t.fails = false)
    (halone : s.Always fun t => ∀ store, t.others store k = store k) :
    ((discard k).run srv s).1 = .requeue ∧ ((discard k).run srv s).2.store k = none := by
  have houtcome : ((discard k).run srv s).1 = .requeue := by
    obtain ⟨hanswer, hstore⟩ := Session.ask_of_not_fails (hthrough 0) srv (.get k)
    cases hk : s.wait.store k with
    | none =>
        rw [srv.answer_get_none hk] at hanswer
        simp only [discard, Client.run_bind, Client.run_get, hanswer, Client.run_pure]
    | some a =>
        rw [srv.answer_get_some hk] at hanswer hstore
        have hthrough' := hthrough.ask srv (.get k)
        have hwait : (s.ask srv (.get k)).2.wait.store k = some a :=
          ((halone.ask srv (.get k)) 0 _).trans ((congrFun hstore k).trans hk)
        have hdelete := (Session.ask_of_not_fails (hthrough' 0) srv (.delete k)).1
        rw [srv.answer_delete_some hwait] at hdelete
        simp only [discard, Client.run_bind, Client.run_get, hanswer, Client.run_delete, hdelete,
          Client.run_pure]
        rfl
  exact ⟨houtcome, discard_store (by rw [houtcome]; decide)⟩

end Discard

/-! ## Steps in order -/

section InOrder

variable {goOn : Outcome → Bool}

theorem run_inOrder_cons (p : Client α Outcome) (ps : List (Client α Outcome)) :
    (inOrder goOn (p :: ps)).run srv s =
      if goOn (p.run srv s).1 then (inOrder goOn ps).run srv (p.run srv s).2 else p.run srv s := by
  rw [inOrder, Client.run_bind]
  split <;> rfl

theorem run_inOrder_singleton (p : Client α Outcome) :
    (inOrder Outcome.isProceed [p]).run srv s = p.run srv s := by
  rw [run_inOrder_cons]
  split
  · rename_i hproceed
    exact Prod.ext (Outcome.isProceed_iff.1 hproceed).symm rfl
  · rfl

/-- Later steps run only if the earlier ones have come to their end. -/
theorem run_inOrder_append (hgo : goOn .proceed = true) (ps qs : List (Client α Outcome)) :
    (inOrder goOn (ps ++ qs)).run srv s =
      if ((inOrder goOn ps).run srv s).1 = .proceed then
        (inOrder goOn qs).run srv ((inOrder goOn ps).run srv s).2
      else (inOrder goOn ps).run srv s := by
  induction ps generalizing s with
  | nil => exact (if_pos rfl).symm
  | cons p ps ih =>
      rw [List.cons_append, run_inOrder_cons, run_inOrder_cons, ih]
      by_cases hp : goOn (p.run srv s).1 = true
      · rw [if_pos hp, if_pos hp]
      · have hne : (p.run srv s).1 ≠ .proceed := fun h => hp (h ▸ hgo)
        rw [if_neg hp, if_neg hp, if_neg hne]

/-- Steps in order go on exactly if they have come to their end. -/
theorem inOrder_goOn_iff (hgo : goOn .proceed = true) {ps : List (Client α Outcome)} :
    goOn ((inOrder goOn ps).run srv s).1 = true ↔ ((inOrder goOn ps).run srv s).1 = .proceed := by
  refine ⟨fun h => ?_, fun h => h ▸ hgo⟩
  induction ps generalizing s with
  | nil => rfl
  | cons p ps ih =>
      rw [run_inOrder_cons] at h ⊢
      split at h
      · rename_i hp
        rw [if_pos hp]
        exact ih h
      · rename_i hp
        exact absurd h hp

/-- Steps that have come to their end: each of them was run after the ones before it, went
well, and was followed by the ones after it. -/
theorem inOrder_split (hgo : goOn .proceed = true) {before after : List (Client α Outcome)}
    {p : Client α Outcome} (h : ((inOrder goOn (before ++ p :: after)).run srv s).1 = .proceed) :
    goOn (p.run srv ((inOrder goOn before).run srv s).2).1 = true ∧
      (inOrder goOn (before ++ p :: after)).run srv s =
        (inOrder goOn after).run srv (p.run srv ((inOrder goOn before).run srv s).2).2 := by
  rw [run_inOrder_append hgo] at h ⊢
  by_cases hbefore : ((inOrder goOn before).run srv s).1 = .proceed
  · rw [if_pos hbefore, run_inOrder_cons] at h ⊢
    by_cases hp : goOn (p.run srv ((inOrder goOn before).run srv s).2).1 = true
    · exact ⟨hp, if_pos hp⟩
    · rw [if_neg hp] at h
      exact absurd (h ▸ hgo) hp
  · rw [if_neg hbefore] at h
    exact absurd h hbefore

/-- What each step sees when it goes well is in the log of the whole. -/
theorem inOrder_log (hgo : goOn .proceed = true) {ps : List (Client α Outcome)}
    (h : ((inOrder goOn ps).run srv s).1 = .proceed) {p : Client α Outcome} (hp : p ∈ ps) :
    ∃ s' : Session α, goOn (p.run srv s').1 = true ∧
      (p.run srv s').2.log ⊆ ((inOrder goOn ps).run srv s).2.log := by
  obtain ⟨before, after, rfl⟩ := List.append_of_mem hp
  obtain ⟨hgood, hrun⟩ := inOrder_split hgo h
  exact ⟨_, hgood, hrun ▸ Client.subset_log ..⟩

/-- What is true of all that each step asks when it goes well is true of all that they ask
together. -/
theorem inOrder_log_forall {Q : Event α → Prop} (hgo : goOn .proceed = true)
    {ps : List (Client α Outcome)}
    (hps : ∀ p ∈ ps, ∀ s : Session α, goOn (p.run srv s).1 = true →
      ∃ new, (p.run srv s).2.log = s.log ++ new ∧ ∀ e ∈ new, Q e)
    (h : ((inOrder goOn ps).run srv s).1 = .proceed) :
    ∃ new, ((inOrder goOn ps).run srv s).2.log = s.log ++ new ∧ ∀ e ∈ new, Q e := by
  induction ps generalizing s with
  | nil => exact ⟨[], (List.append_nil _).symm, List.forall_mem_nil _⟩
  | cons p ps ih =>
      obtain ⟨hp, hps⟩ := List.forall_mem_cons.1 hps
      rw [run_inOrder_cons] at h ⊢
      split at h
      · rename_i hgood
        obtain ⟨first, hfirst, hQ⟩ := hp s hgood
        obtain ⟨rest, hrest, hQ'⟩ := ih hps h
        rw [if_pos hgood]
        refine ⟨first ++ rest, ?_, List.forall_mem_append.2 ⟨hQ, hQ'⟩⟩
        rw [hrest, hfirst, List.append_assoc]
      · rename_i hbad
        exact absurd (h ▸ hgo) hbad

/-- Steps that all go well come to their end. -/
theorem inOrder_proceed {T : Turn α → Prop} {ps : List (Client α Outcome)}
    (hps : ∀ p ∈ ps, ∀ s : Session α, s.Always T → goOn (p.run srv s).1 = true)
    (hturns : s.Always T) : ((inOrder goOn ps).run srv s).1 = .proceed := by
  induction ps generalizing s with
  | nil => rfl
  | cons p ps ih =>
      obtain ⟨hp, hps⟩ := List.forall_mem_cons.1 hps
      rw [run_inOrder_cons, if_pos (hp s hturns)]
      exact ih hps (Client.always_run _ hturns)

/-- What a step that goes well brings about, and neither the others nor the later steps
undo. -/
theorem inOrder_store {I : Store α → Prop} {T : Turn α → Prop} {P : Request α → Prop}
    (hgo : goOn .proceed = true) {ps : List (Client α Outcome)}
    (h : ((inOrder goOn ps).run srv s).1 = .proceed) (hturns : s.Always T)
    {p : Client α Outcome} (hp : p ∈ ps)
    (hstep : ∀ s' : Session α, s'.Always T → goOn (p.run srv s').1 = true →
      I (p.run srv s').2.store)
    (hrequests : ∀ q ∈ ps, q.Requests P)
    (hothers : ∀ t, T t → ∀ store, I store → I (t.others store))
    (hanswer : ∀ r, P r → ∀ store, I store → I (srv.answer r store).2) :
    I ((inOrder goOn ps).run srv s).2.store := by
  obtain ⟨before, after, rfl⟩ := List.append_of_mem hp
  obtain ⟨hgood, hrun⟩ := inOrder_split hgo h
  have hturns' : ((inOrder goOn before).run srv s).2.Always T := Client.always_run _ hturns
  rw [hrun]
  refine Client.run_invariant (requests_inOrder fun q hq => hrequests q ?_) hothers hanswer
    (Client.always_run p hturns') (hstep _ hturns' hgood)
  exact List.mem_append_right _ (List.mem_cons_of_mem _ hq)

end InOrder

/-! ## Convergence -/

/-- The object is there, and as it is wanted. -/
def Held (fit : ∀ k, α k → Prop) (k : κ) (store : Store α) : Prop := ∃ a, store k = some a ∧ fit k a

/-- An object has been left alone, or brought to be as it is wanted. -/
def Leaves (fit : ∀ k, α k → Prop) (k : κ) (old new : Store α) : Prop :=
  new k = old k ∨ Held fit k new

/-- Requests that write objects under the given keys as they are wanted, and delete none
of them. -/
def Gentle (srv : Server α) (fit : ∀ k, α k → Prop) (ours : κ → Prop) : Request α → Prop
  | .get _ => True
  | .create k a => ours k → fit k (srv.persist k none a)
  | .update k a => ours k → ∀ old, fit k (srv.persist k (some old) a)
  | .delete k => ¬ours k

/-- No request fails, and the others leave the objects under the given keys alone, or bring
them to be as they are wanted. -/
structure Cooperative (fit : ∀ k, α k → Prop) (ours : κ → Prop) (t : Turn α) : Prop where
  through : t.fails = false
  leaves : ∀ k, ours k → ∀ store, Leaves fit k store (t.others store)

section Convergence

variable {fit : ∀ k, α k → Prop} {ours : κ → Prop} {k : κ}

omit [DecidableEq κ] in
theorem Held.of_leaves {old new : Store α} (h : Held fit k old) (hnew : Leaves fit k old new) :
    Held fit k new := by
  rcases hnew with heq | hheld
  · obtain ⟨a, ha, hfit⟩ := h
    exact ⟨a, heq.trans ha, hfit⟩
  · exact hheld

omit [DecidableEq κ] in
theorem Cooperative.held {t : Turn α} (ht : Cooperative fit ours t) (hk : ours k)
    {store : Store α} (h : Held fit k store) : Held fit k (t.others store) :=
  h.of_leaves (ht.leaves k hk store)

theorem held_update_self (store : Store α) {a : α k} (h : fit k a) :
    Held fit k (Function.update store k (some a)) := ⟨a, Function.update_self .., h⟩

/-- Gentle requests do what cooperative others do. -/
theorem Gentle.leaves {r : Request α} (h : Gentle srv fit ours r) (hk : ours k)
    (store : Store α) : Leaves fit k store (srv.answer r store).2 := by
  by_cases hkey : k = r.key
  swap
  · exact Or.inl (srv.answer_of_ne r store hkey)
  subst hkey
  cases r with
  | get k => exact Or.inl (congrFun (srv.answer_isGet rfl store) k)
  | create k a =>
      cases hstore : store k with
      | none =>
          rw [srv.answer_create_none hstore]
          exact Or.inr (held_update_self store (h hk))
      | some old =>
          rw [srv.answer_create_some hstore]
          exact Or.inl rfl
  | update k a =>
      cases hstore : store k with
      | none =>
          rw [srv.answer_update_none hstore]
          exact Or.inl rfl
      | some old =>
          rw [srv.answer_update_some hstore]
          exact Or.inr (held_update_self store (h hk old))
  | delete k => exact absurd hk h

/-- A client whose requests are gentle keeps what is held. -/
theorem held_run {p : Client α β} (hp : p.Requests (Gentle srv fit ours)) (hk : ours k)
    (hturns : s.Always (Cooperative fit ours)) (h : Held fit k s.store) :
    Held fit k (p.run srv s).2.store :=
  Client.run_invariant hp (fun _ ht _ => ht.held hk)
    (fun _ hr store hI => hI.of_leaves (hr.leaves hk store)) hturns h

/-- A step settles objects: it brings them to be as they are wanted, when some other objects
are so, and once they are it has nothing more to do. -/
structure Settles (srv : Server α) (fit : ∀ k, α k → Prop) (ours : κ → Prop) (given : List κ)
    (ks : List κ) (p : Client α Outcome) : Prop where
  mine : ∀ k ∈ ks, ours k
  gentle : p.Requests (Gentle srv fit ours)
  proceeds : ∀ s : Session α, s.Always (Cooperative fit ours) →
    (∀ k ∈ given, Held fit k s.store) → (∀ k ∈ ks, Held fit k s.store) → (p.run srv s).1 = .proceed
  settles : ∀ s : Session α, s.Always (Cooperative fit ours) →
    (∀ k ∈ given, Held fit k s.store) → ∀ k ∈ ks, Held fit k (p.run srv s).2.store

section Asks

variable (hthrough : (s.turns 0).fails = false)
include hthrough

theorem get_some (srv : Server α) {a : α k} (h : s.wait.store k = some a) :
    (s.ask srv (.get k)).1 = .ok a ∧ (s.ask srv (.get k)).2.store = s.wait.store := by
  have hask := Session.ask_of_not_fails hthrough srv (.get k)
  rwa [srv.answer_get_some h] at hask

theorem get_none (srv : Server α) (h : s.wait.store k = none) :
    (s.ask srv (.get k)).1 = .error .notFound ∧ (s.ask srv (.get k)).2.store = s.wait.store := by
  have hask := Session.ask_of_not_fails hthrough srv (.get k)
  rwa [srv.answer_get_none h] at hask

theorem held_create {expected : α k} (hfit : fit k (srv.persist k none expected))
    (h : s.wait.store k = none ∨ Held fit k s.wait.store) :
    Held fit k (s.ask srv (.create k expected)).2.store := by
  rw [(Session.ask_of_not_fails hthrough srv _).2]
  rcases h with hnone | hheld
  · rw [srv.answer_create_none hnone]
    exact held_update_self _ hfit
  · obtain ⟨old, hold, _⟩ := id hheld
    rw [srv.answer_create_some hold]
    exact hheld

theorem held_update {old new : α k} (hfit : ∀ old, fit k (srv.persist k (some old) new))
    (h : s.wait.store k = some old) :
    (s.ask srv (.update k new)).1 = .ok () ∧ Held fit k (s.ask srv (.update k new)).2.store := by
  obtain ⟨hanswer, hstore⟩ := Session.ask_of_not_fails hthrough srv (.update k new)
  rw [srv.answer_update_some h] at hanswer hstore
  exact ⟨hanswer, hstore ▸ held_update_self _ (hfit old)⟩

end Asks

omit [DecidableEq κ] in
/-- An object that is there stays there over a cooperative turn. -/
theorem exists_wait {a : α k} (ht : Cooperative fit ours (s.turns 0)) (hk : ours k)
    (h : s.store k = some a) : ∃ b, s.wait.store k = some b := by
  rcases ht.leaves k hk s.store with hsame | ⟨b, hb, _⟩
  · exact ⟨a, hsame.trans h⟩
  · exact ⟨b, hb⟩

/-- An `ensure` settles its object, if the store keeps what makes an object wanted. -/
theorem settles_ensure {given : List κ} {expected : α k} {repair : α k → Go (Option (α k))}
    {again : Outcome} (hk : ours k) (hcreate : fit k (srv.persist k none expected))
    (hupdate : ∀ a new, repair a = .ok (some new) → ∀ old, fit k (srv.persist k (some old) new))
    (hfound : ∀ a, repair a = .ok none → fit k a)
    (hfit : ∀ a, fit k a → repair a = .ok none ∨ again = .proceed)
    (hreturns : ∀ a f, repair a ≠ .error f) :
    Settles srv fit ours given [k] (ensure k expected repair again) where
  mine := List.forall_mem_singleton.2 hk
  gentle := requests_ensure trivial (fun _ => hcreate) fun a new h _ => hupdate a new h
  proceeds := by
    intro s hturns _ hheld
    obtain ⟨a, ha, hafit⟩ := (hturns 0).held hk (hheld k (List.mem_singleton_self k))
    obtain ⟨hget, hstore⟩ := get_some (hturns 0).through srv ha
    rcases hrepair : repair a with f | (_ | new)
    · exact absurd hrepair (hreturns a f)
    · rw [run_ensure_found hget hrepair]
    · have hagain : again = .proceed := by
        refine (hfit a hafit).resolve_left fun hnone => ?_
        rw [hnone] at hrepair
        cases hrepair
      have hturns' := hturns.ask srv (.get k)
      obtain ⟨b, hb⟩ := exists_wait (hturns' 0) hk ((congrFun hstore k).trans ha)
      have hwrite := (held_update (hturns' 0).through (hupdate a new hrepair) hb).1
      rw [run_ensure_repair hget hrepair, hwrite, hagain]
      rfl
  settles := by
    intro s hturns _ k' hk'
    obtain rfl := List.mem_singleton.1 hk'
    have hturns' := hturns.ask srv (.get k')
    cases hwait : s.wait.store k' with
    | none =>
        obtain ⟨hget, hstore⟩ := get_none (hturns 0).through srv hwait
        rw [run_ensure_notFound hget]
        refine held_create (hturns' 0).through hcreate ?_
        refine ((hturns' 0).leaves k' hk _).imp_left fun hsame => ?_
        exact hsame.trans ((congrFun hstore k').trans hwait)
    | some a =>
        obtain ⟨hget, hstore⟩ := get_some (hturns 0).through srv hwait
        rcases hrepair : repair a with f | (_ | new)
        · exact absurd hrepair (hreturns a f)
        · rw [run_ensure_found hget hrepair, hstore]
          exact ⟨a, hwait, hfound a hrepair⟩
        · obtain ⟨b, hb⟩ := exists_wait (hturns' 0) hk ((congrFun hstore k').trans hwait)
          rw [run_ensure_repair hget hrepair]
          exact (held_update (hturns' 0).through (hupdate a new hrepair) hb).2

/-- A step that does nothing settles nothing. -/
theorem settles_pure {given : List κ} : Settles srv fit ours given [] (pure .proceed) where
  mine _ hk := absurd hk List.not_mem_nil
  gentle := Client.requests_pure _
  proceeds _ _ _ _ := rfl
  settles _ _ _ _ hk := absurd hk List.not_mem_nil

/-- All the objects of some steps are as they are wanted. -/
def Settled (fit : ∀ k, α k → Prop) (keys : List (List κ)) (store : Store α) : Prop :=
  ∀ ks ∈ keys, ∀ k ∈ ks, Held fit k store

variable {given : List κ} {steps : List (List κ × Client α Outcome)}

/-- One pass over the steps. -/
def pass (steps : List (List κ × Client α Outcome)) : Client α Outcome :=
  inOrder Outcome.isProceed (steps.map Prod.snd)

theorem requests_pass (hsteps : ∀ step ∈ steps, Settles srv fit ours given step.1 step.2) :
    (pass steps).Requests (Gentle srv fit ours) := by
  refine requests_inOrder fun p hp => ?_
  obtain ⟨step, hstep, rfl⟩ := List.mem_map.1 hp
  exact (hsteps step hstep).gentle

/-- What is settled stays so. -/
theorem settled_run {p : Client α β} (hp : p.Requests (Gentle srv fit ours))
    {keys : List (List κ)} (hours : ∀ ks ∈ keys, ∀ k ∈ ks, ours k)
    (hturns : s.Always (Cooperative fit ours)) (h : Settled fit keys s.store) :
    Settled fit keys (p.run srv s).2.store :=
  fun ks hks k hk => held_run hp (hours ks hks k hk) hturns (h ks hks k hk)

/-- **A pass settles one more step.** -/
theorem settled_take_succ (hgivenOurs : ∀ k ∈ given, ours k)
    (hsteps : ∀ step ∈ steps, Settles srv fit ours given step.1 step.2)
    (hturns : s.Always (Cooperative fit ours)) (hgiven : ∀ k ∈ given, Held fit k s.store) {n : ℕ}
    (h : Settled fit ((steps.map Prod.fst).take n) s.store) :
    Settled fit ((steps.map Prod.fst).take (n + 1)) ((pass steps).run srv s).2.store := by
  induction steps generalizing n s with
  | nil => exact List.forall_mem_nil _
  | cons step steps ih =>
      obtain ⟨hstep, hsteps⟩ := List.forall_mem_cons.1 hsteps
      have hturns' : (step.2.run srv s).2.Always (Cooperative fit ours) :=
        Client.always_run _ hturns
      have hgiven' : ∀ k ∈ given, Held fit k (step.2.run srv s).2.store := fun k hk =>
        held_run hstep.gentle (hgivenOurs k hk) hturns (hgiven k hk)
      have hself := hstep.settles s hturns hgiven
      have hours : ∀ m, ∀ ks ∈ (steps.map Prod.fst).take m, ∀ k ∈ ks, ours k := by
        intro m ks hks
        obtain ⟨other, hother, rfl⟩ := List.mem_map.1 (List.mem_of_mem_take hks)
        exact (hsteps other hother).mine
      rw [pass, List.map_cons, List.map_cons, run_inOrder_cons]
      split
      · rename_i hgo
        have hrest : Settled fit ((steps.map Prod.fst).take n)
            ((pass steps).run srv (step.2.run srv s).2).2.store := by
          cases n with
          | zero => exact List.forall_mem_nil _
          | succ n =>
              exact ih hsteps hturns' hgiven' (settled_run hstep.gentle (hours n) hturns
                (List.forall_mem_cons.1 h).2)
        refine List.forall_mem_cons.2 ⟨fun k hk => ?_, hrest⟩
        exact held_run (requests_pass hsteps) (hstep.mine k hk) hturns' (hself k hk)
      · rename_i hgo
        cases n with
        | zero => exact List.forall_mem_cons.2 ⟨hself, List.forall_mem_nil _⟩
        | succ n =>
            -- a settled step would have gone on
            have hproceed := hstep.proceeds s hturns hgiven (List.forall_mem_cons.1 h).1
            exact absurd (Outcome.isProceed_iff.2 hproceed) hgo

/-- When all steps are settled, a pass has nothing to do. -/
theorem pass_proceed (hgivenOurs : ∀ k ∈ given, ours k)
    (hsteps : ∀ step ∈ steps, Settles srv fit ours given step.1 step.2)
    (hturns : s.Always (Cooperative fit ours)) (hgiven : ∀ k ∈ given, Held fit k s.store)
    (h : Settled fit (steps.map Prod.fst) s.store) : ((pass steps).run srv s).1 = .proceed := by
  induction steps generalizing s with
  | nil => rfl
  | cons step steps ih =>
      obtain ⟨hstep, hsteps⟩ := List.forall_mem_cons.1 hsteps
      obtain ⟨hself, hrest⟩ := List.forall_mem_cons.1 h
      have hproceed := hstep.proceeds s hturns hgiven hself
      rw [pass, List.map_cons, run_inOrder_cons, if_pos (Outcome.isProceed_iff.2 hproceed)]
      refine ih hsteps (Client.always_run _ hturns)
        (fun k hk => held_run hstep.gentle (hgivenOurs k hk) hturns (hgiven k hk))
        (settled_run hstep.gentle (fun ks hks => ?_) hturns hrest)
      obtain ⟨other, hother, rfl⟩ := List.mem_map.1 hks
      exact (hsteps other hother).mine

end Convergence

/-! ## Passes -/

/-- What is left after some passes; what is done in a pass may depend on which one it is. -/
def passes (srv : Server α) (p : ℕ → Client α β) (s : Session α) : ℕ → Session α
  | 0 => s
  | n + 1 => ((p n).run srv (passes srv p s n)).2

theorem always_passes {T : Turn α → Prop} {p : ℕ → Client α β} (h : s.Always T) (n : ℕ) :
    (passes srv p s n).Always T := by
  induction n with
  | zero => exact h
  | succ n ih => exact Client.always_run _ ih

/-- What every pass keeps. -/
theorem passes_invariant {I : Store α → Prop} {T : Turn α → Prop} {p : ℕ → Client α β}
    (hturns : s.Always T)
    (hpass : ∀ n (s : Session α), s.Always T → I s.store → I ((p n).run srv s).2.store)
    (h : I s.store) (n : ℕ) : I (passes srv p s n).store := by
  induction n with
  | zero => exact h
  | succ n ih => exact hpass n _ (always_passes hturns n) ih

/-- If every pass settles one more step, as many passes as there are steps are enough. -/
theorem settled_passes {fit : ∀ k, α k → Prop} {T : Turn α → Prop} {I : Store α → Prop}
    {p : ℕ → Client α β} {keys : List (List κ)} (hturns : s.Always T)
    (hI : ∀ n, I (passes srv p s n).store)
    (hpass : ∀ n (s : Session α), s.Always T → I s.store → ∀ m,
      Settled fit (keys.take m) s.store → Settled fit (keys.take (m + 1)) ((p n).run srv s).2.store)
    {n : ℕ} (hn : keys.length ≤ n) : Settled fit keys (passes srv p s n).store := by
  have htake : ∀ n, Settled fit (keys.take n) (passes srv p s n).store := by
    intro n
    induction n with
    | zero => exact List.forall_mem_nil _
    | succ n ih => exact hpass n _ (always_passes hturns n) (hI n) n ih
  have hall := htake n
  rwa [List.take_of_length_le hn] at hall

end Reconciler
end IntegrityShield
