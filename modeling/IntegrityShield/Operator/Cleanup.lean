/-
# The finalizer

Children without a namespace outlive the resource that owns them, so the operator deletes
them itself, while a finalizer keeps the resource.  It deletes exactly the objects
without a namespace that the passes for the resource manage (`mem_cleanupKeys_iff`), and
gives up the finalizer only after it has seen each of them missing or has deleted it
(`finalizer_removed_after`).  If the others do not create them again, none of them is left
(`finalized_leaves_nothing`).
-/

import IntegrityShield.Operator.Stages

namespace IntegrityShield
namespace Operator

open ObjectStore Reconciler

/-- The object was seen missing, or was deleted. -/
def Gone (k : Key) (log : List (Event Key.Content)) : Prop :=
  (⟨.get k, .error .notFound⟩ : Event Key.Content) ∈ log ∨
    (⟨.delete k, .ok ()⟩ : Event Key.Content) ∈ log

/-- The keys that the finalizer deletes. -/
def cleanupKeys (env : Environment) (cr : IntegrityShieldCR) : List Key :=
  (cleanupSteps env cr).flatMap Prod.fst

section

variable {env : Environment} {cr : IntegrityShieldCR} {srv : Server Key.Content}
  {s : Session Key.Content}

/-! ## The steps -/

/-- The shapes of the steps. -/
inductive CleanupShape : List Key × Step → Prop where
  | discard (k : Key) : CleanupShape ([k], discard k)
  | skipped : CleanupShape ([], return .proceed)
  | faulty (ks : List Key) (f : Fault) : CleanupShape (ks, return .fault f)

theorem cleanupShape_webhook :
    CleanupShape ([.webhook cr.getWebhookConfigName], deleteWebhook env cr) := by
  unfold deleteWebhook
  cases hbuild : buildMutatingWebhookConfigurationForIShield env cr with
  | error f => exact .faulty _ f
  | ok expected =>
      rw [← buildMutatingWebhookConfigurationForIShield_name hbuild]
      exact .discard _

theorem cleanupShape : ∀ step ∈ cleanupSteps env cr, CleanupShape step := by
  unfold cleanupSteps
  simp only [List.forall_mem_append, List.forall_mem_cons, List.not_mem_nil, false_implies,
    implies_true, and_true]
  refine ⟨⟨⟨cleanupShape_webhook, .discard _⟩, ?_⟩, .discard _, .discard _, ?_, .discard _,
    .discard _, .discard _, .discard _⟩
  · split
    · exact List.forall_mem_nil _
    · simp only [List.forall_mem_cons, List.not_mem_nil, false_implies, implies_true, and_true]
      exact ⟨.discard _, .discard _⟩
  · rcases cr.helmEnabled with f | (_ | _)
    · exact .faulty _ f
    · exact .skipped
    · exact .discard _

theorem CleanupShape.requests {step : List Key × Step} (h : CleanupShape step)
    {P : Request Key.Content → Prop} (hget : ∀ k, P (.get k))
    (hdelete : ∀ k ∈ step.1, P (.delete k)) :
    step.2.Requests P := by
  cases h with
  | discard k => exact requests_discard (hget k) (hdelete k (List.mem_singleton_self k))
  | skipped => exact Client.requests_pure _
  | faulty ks f => exact Client.requests_pure _

theorem requests_cleanup {P : Request Key.Content → Prop} (hget : ∀ k, P (.get k))
    (hdelete : ∀ k ∈ cleanupKeys env cr, P (.delete k)) :
    ∀ p ∈ (cleanupSteps env cr).map Prod.snd, p.Requests P := by
  intro p hp
  obtain ⟨step, hstep, rfl⟩ := List.mem_map.1 hp
  exact (cleanupShape step hstep).requests hget fun k hk =>
    hdelete k (List.mem_flatMap.2 ⟨step, hstep, hk⟩)

theorem requests_finalize {P : Request Key.Content → Prop} (hget : ∀ k, P (.get k))
    (hdelete : ∀ k ∈ cleanupKeys env cr, P (.delete k))
    (hupdate : P (.update cr.key (cr.removeFinalizer cleanupFinalizerName))) :
    (finalize env cr).Requests P := by
  unfold finalize
  split
  · refine Client.requests_bind (requests_inOrder (requests_cleanup hget hdelete))
      fun outcome => ?_
    split
    · exact Client.requests_bind (Client.requests_request hupdate) fun _ => Client.requests_pure _
    · exact Client.requests_pure _
  · exact Client.requests_pure _

/-- A step that goes well has seen that its objects are gone, and then they are. -/
theorem CleanupShape.fine {step : List Key × Step} (h : CleanupShape step)
    (hfine : (step.2.run srv s).1.isFine = true) :
    ∀ k ∈ step.1, Gone k (step.2.run srv s).2.log ∧ (step.2.run srv s).2.store k = none := by
  cases h with
  | discard k =>
      have hne := Outcome.ne_failed_of_isFine hfine
      exact List.forall_mem_singleton.2 ⟨discard_log hne, discard_store hne⟩
  | skipped => exact List.forall_mem_nil _
  | faulty ks f => cases hfine

/-- When all steps have gone well, every object was seen to be gone. -/
theorem gone_of_cleanup
    (h : ((deleteClusterScopedChildrenResources env cr).run srv s).1 = .proceed) :
    ∀ k ∈ cleanupKeys env cr,
      Gone k ((deleteClusterScopedChildrenResources env cr).run srv s).2.log := by
  intro k hk
  obtain ⟨step, hstep, hk⟩ := List.mem_flatMap.1 hk
  obtain ⟨s', hfine, hlog⟩ := inOrder_log rfl h (List.mem_map_of_mem hstep)
  exact ((cleanupShape step hstep).fine hfine k hk).1.imp (fun h => hlog h) fun h => hlog h

/-- When all steps have gone well and nobody creates them again, no object is left. -/
theorem store_of_cleanup
    (h : ((deleteClusterScopedChildrenResources env cr).run srv s).1 = .proceed)
    (hothers : s.Always fun t => ∀ k ∈ cleanupKeys env cr, ∀ store, store k = none →
      t.others store k = none) :
    ∀ k ∈ cleanupKeys env cr,
      ((deleteClusterScopedChildrenResources env cr).run srv s).2.store k = none := by
  intro k hk
  obtain ⟨step, hstep, hkstep⟩ := List.mem_flatMap.1 hk
  refine inOrder_store (I := fun store => store k = none)
    (P := fun r => ∀ store, store k = none → (srv.answer r store).2 k = none) rfl h hothers
    (List.mem_map_of_mem hstep)
    (fun s' _ hfine => ((cleanupShape step hstep).fine hfine k hkstep).2)
    (requests_cleanup ?_ ?_) (fun t ht store => ht k hk store) fun r hr => hr
  · intro k' store hnone
    rw [srv.answer_isGet rfl]
    exact hnone
  · intro k' _ store hnone
    by_cases hkey : k = k'
    · subst hkey
      rw [srv.answer_delete_none hnone]
      exact hnone
    · rw [srv.answer_of_ne _ _ hkey]
      exact hnone

end

section

variable [Reflect] {env : Environment} {cr : IntegrityShieldCR} {srv : Server Key.Content}
  {s : Session Key.Content}

/-- **What the finalizer deletes** is, of the objects that the passes manage, those without a
namespace. -/
theorem mem_cleanupKeys_iff {k : Key} :
    k ∈ cleanupKeys env cr ↔ k.kind.isClusterScoped = true ∧
      (k ∈ managedKeys env cr ∨ k = .webhook cr.getWebhookConfigName) := by
  obtain ⟨kind, ns, name⟩ := k
  unfold cleanupKeys managedKeys stages cleanupSteps
  -- of each kind, both lists hold the same names
  rcases cr.helmEnabled with f | (_ | _) <;> split_ifs <;>
    simp only [List.flatMap_append, List.flatMap_cons, List.flatMap_nil, List.flatMap_map,
      List.mem_append, List.mem_cons, List.not_mem_nil, or_false, false_or, List.append_nil,
      Key.mk.injEq, List.mem_flatMap, List.mem_map] <;>
    cases kind <;> simp [Kind.isClusterScoped] <;> tauto

theorem key_notMem_cleanupKeys : cr.key ∉ cleanupKeys env cr := fun h =>
  Bool.false_ne_true (mem_cleanupKeys_iff.1 h).1

/-! ## Giving up the finalizer -/

/-- A request that writes a resource of the operator. -/
def WritesResource : Request Key.Content → Prop
  | .get _ => False
  | .create k _ => k.kind = .integrityShield
  | .update k _ => k.kind = .integrityShield
  | .delete k => k.kind = .integrityShield

instance : DecidablePred WritesResource
  | .get _ => inferInstanceAs (Decidable False)
  | .create k _ => inferInstanceAs (Decidable (k.kind = .integrityShield))
  | .update k _ => inferInstanceAs (Decidable (k.kind = .integrityShield))
  | .delete k => inferInstanceAs (Decidable (k.kind = .integrityShield))

theorem not_writesResource_of_live {r : Request Key.Content} (h : LiveRequest env cr r) :
    ¬WritesResource r := by
  intro hr
  have hmanaged : ∀ k ∈ managedKeys env cr, k.kind ≠ .integrityShield := by
    intro k hk hkind
    have h := isManaged_of_mem_managedKeys k hk
    rw [hkind] at h
    cases h
  cases r with
  | get k => exact hr
  | create k a =>
      rcases h with hk | rfl | rfl
      · exact hmanaged k hk hr
      · cases hr
      · cases hr
  | update k a =>
      rcases h with ⟨hk, _⟩ | rfl
      · exact hmanaged k hk hr
      · cases hr
  | delete k =>
      obtain rfl : k = _ := h
      cases hr

theorem not_writesResource_of_cleanup {r : Request Key.Content}
    (h : r.isGet = true ∨ ∃ k ∈ cleanupKeys env cr, r = .delete k) : ¬WritesResource r := by
  intro hr
  rcases h with h | ⟨k, hk, rfl⟩
  · cases r <;> first | exact hr | cases h
  · have hk := (mem_cleanupKeys_iff.1 hk).1
    rw [show k.kind = .integrityShield from hr] at hk
    cases hk

omit [Reflect] in
/-- The finalizer branch, for a resource that has the finalizer. -/
theorem run_finalize (h : cleanupFinalizerName ∈ cr.finalizers) :
    (finalize env cr).run srv s =
      if ((deleteClusterScopedChildrenResources env cr).run srv s).1 = .proceed then
        (.ofWrite .proceed
          (((deleteClusterScopedChildrenResources env cr).run srv s).2.ask srv
            (.update cr.key (cr.removeFinalizer cleanupFinalizerName))).1,
          (((deleteClusterScopedChildrenResources env cr).run srv s).2.ask srv
            (.update cr.key (cr.removeFinalizer cleanupFinalizerName))).2)
      else (deleteClusterScopedChildrenResources env cr).run srv s := by
  rw [finalize, if_pos h, Client.run_bind]
  by_cases hfine : ((deleteClusterScopedChildrenResources env cr).run srv s).1 = .proceed
  · rw [if_pos hfine, hfine]
    rfl
  · have hnot : ((deleteClusterScopedChildrenResources env cr).run srv s).1.isFine ≠ true :=
      fun h => hfine ((inOrder_goOn_iff rfl).1 h)
    rw [if_neg hfine, if_neg hnot]
    rfl

/-- What is written by the finalizer branch, and what has been seen before. -/
theorem finalize_writes {before after : List (Event Key.Content)} {e : Event Key.Content}
    (hold : ∀ e ∈ s.log, ¬WritesResource e.1) (he : WritesResource e.1)
    (hlog : ((finalize env cr).run srv s).2.log = before ++ e :: after) :
    cleanupFinalizerName ∈ cr.finalizers ∧
      e.1 = .update cr.key (cr.removeFinalizer cleanupFinalizerName) ∧
      ∀ k ∈ cleanupKeys env cr, Gone k before := by
  have hmem : e ∈ ((finalize env cr).run srv s).2.log :=
    hlog ▸ List.mem_append_right _ (List.mem_cons_self ..)
  by_cases hfinalizer : cleanupFinalizerName ∈ cr.finalizers
  swap
  · rw [finalize, if_neg hfinalizer] at hmem
    exact absurd he (hold e hmem)
  have hcleanup : ∀ e ∈ ((deleteClusterScopedChildrenResources env cr).run srv s).2.log,
      ¬WritesResource e.1 := by
    have hrequests : (deleteClusterScopedChildrenResources env cr).Requests fun r =>
        r.isGet = true ∨ ∃ k ∈ cleanupKeys env cr, r = .delete k :=
      requests_inOrder (requests_cleanup (fun _ => Or.inl rfl) fun k hk => Or.inr ⟨k, hk, rfl⟩)
    obtain ⟨new, hnew, hall⟩ := Client.log_of_requests hrequests srv s
    rw [hnew]
    exact List.forall_mem_append.2 ⟨hold, fun e he => not_writesResource_of_cleanup (hall e he)⟩
  rw [run_finalize hfinalizer] at hlog hmem
  by_cases hdone : ((deleteClusterScopedChildrenResources env cr).run srv s).1 = .proceed
  swap
  · rw [if_neg hdone] at hmem
    exact absurd he (hcleanup e hmem)
  rw [if_pos hdone] at hlog hmem
  have hlog : ((Client.update cr.key (cr.removeFinalizer cleanupFinalizerName)).run srv
      ((deleteClusterScopedChildrenResources env cr).run srv s).2).2.log = before ++ e :: after :=
    hlog
  have hbefore := Client.log_before hlog fun hmem => hcleanup e hmem he
  rw [Session.ask_log] at hmem
  have heq := List.mem_singleton.1
    ((List.mem_append.1 hmem).resolve_left fun hmem => hcleanup e hmem he)
  refine ⟨hfinalizer, by rw [heq], fun k hk => ?_⟩
  exact (gone_of_cleanup hdone k hk).imp (fun h => hbefore h) fun h => hbefore h

/-- A resource that is not under deletion is not written. -/
theorem not_writesResource_reconcileLive (hold : ∀ e ∈ s.log, ¬WritesResource e.1) :
    ∀ e ∈ ((reconcileLive env cr).run srv s).2.log, ¬WritesResource e.1 := by
  have hrequests : (reconcileLive env cr).Requests (LiveRequest env cr) := requests_reconcileLive
  obtain ⟨new, hnew, hall⟩ := Client.log_of_requests hrequests srv s
  rw [hnew]
  exact List.forall_mem_append.2 ⟨hold, fun e he => not_writesResource_of_live (hall e he)⟩

/-- A comparison that takes no two values for equal. -/
abbrev Reflect.never : Reflect where
  deepEqual _ _ := false
  eq_of_deepEqual h := absurd h Bool.false_ne_true

/-- A store that keeps what is written. -/
def faithfulServer : Server Key.Content := ⟨fun _ _ a => a⟩

/-- A session in which the others do nothing and no request fails. -/
def aloneSession (store : Store Key.Content) : Session Key.Content :=
  ⟨store, fun _ => ⟨id, false⟩, []⟩

/-- The same bare environment in every pass. -/
def bareEnvironment (_ : ℕ) : Environment := {}

/-- A resource under deletion. -/
def leavingCR : IntegrityShieldCR where
  name := "shield"
  «namespace» := "shield-ns"
  deletionTimestamp := true
  finalizers := [cleanupFinalizerName]
  spec := { shieldConfig := some {}, webhookConfigName := "shield-webhook" }

/-- The resource under deletion, and its webhook. -/
def leavingStore : Store Key.Content :=
  Function.update (Function.update (fun _ => none) leavingCR.key (some leavingCR))
    (Key.webhook "shield-webhook") (some [])

/-- **The finalizer goes last.**  Before the operator writes a resource, whatever the others do
and whichever requests fail, it has found this resource under deletion, and it has seen every
object without a namespace that it manages for it missing, or has deleted it; and what it
writes is the resource without the finalizer. -/
theorem finalizer_removed_after (env : Environment) («namespace» name : String)
    (srv : Server Key.Content) (s : Session Key.Content) (hs : s.log = [])
    (before after : List (Event Key.Content)) (e : Event Key.Content) (he : WritesResource e.1)
    (hlog : ((reconcile env «namespace» name).run srv s).2.log = before ++ e :: after) :
    ∃ stored, Found (Key.resource «namespace» name) (· = stored) before ∧
      (env.effective stored).deletionTimestamp = true ∧
      cleanupFinalizerName ∈ (env.effective stored).finalizers ∧
      e.1 = .update (env.effective stored).key
        ((env.effective stored).removeFinalizer cleanupFinalizerName) ∧
      ∀ k : Key, k.kind.isClusterScoped = true →
        k ∈ managedKeys env (env.effective stored) ∨
          k = .webhook (env.effective stored).getWebhookConfigName → Gone k before := by
  have hwrite : e.1.isGet = false := by
    generalize e.1 = r at he
    cases r <;> first | rfl | cases he
  obtain ⟨stored, s', hs', hbefore, hrun⟩ := exists_stored_of_write hs hwrite hlog
  have hold : ∀ e ∈ s'.log, ¬WritesResource e.1 := by
    rw [hs']
    exact List.forall_mem_singleton.2 id
  refine ⟨stored, ⟨stored, hbefore (hs' ▸ List.mem_singleton_self _), rfl⟩, ?_⟩
  rw [hrun] at hlog
  cases hdeletion : (env.effective stored).deletionTimestamp with
  | false =>
      rw [if_neg (by rw [hdeletion]; exact Bool.false_ne_true)] at hlog
      have hmem : e ∈ ((reconcileLive env (env.effective stored)).run srv s').2.log :=
        hlog ▸ List.mem_append_right _ (List.mem_cons_self ..)
      exact absurd he (not_writesResource_reconcileLive hold e hmem)
  | true =>
      rw [if_pos hdeletion] at hlog
      obtain ⟨hfinalizer, heq, hgone⟩ := finalize_writes hold he hlog
      exact ⟨rfl, hfinalizer, heq, fun k hscope hk =>
        hgone k (mem_cleanupKeys_iff.2 ⟨hscope, hk⟩)⟩

omit [Reflect] in
theorem finalizer_removed_after_leaving :
    letI := Reflect.never
    ∃ before e after, ((reconcile {} "shield-ns" "shield").run faithfulServer
        (aloneSession leavingStore)).2.log = before ++ e :: after ∧ WritesResource e.1 ∧
      ∃ stored, Found (Key.resource "shield-ns" "shield") (· = stored) before ∧
        e.1 = .update (Environment.effective {} stored).key
          ((Environment.effective {} stored).removeFinalizer cleanupFinalizerName) := by
  let _ := Reflect.never
  have hany : ((reconcile {} "shield-ns" "shield").run faithfulServer
      (aloneSession leavingStore)).2.log.any (fun e => decide (WritesResource e.1)) = true := by
    decide +kernel
  obtain ⟨e, hmem, he⟩ := List.any_eq_true.1 hany
  obtain ⟨before, after, hlog⟩ := List.append_of_mem hmem
  have he := of_decide_eq_true he
  obtain ⟨stored, hfound, _, _, heq, _⟩ := finalizer_removed_after {} "shield-ns" "shield"
    faithfulServer (aloneSession leavingStore) rfl before after e he hlog
  exact ⟨before, e, after, hlog, he, stored, hfound, heq⟩

/-! ## The store after a deletion -/

section Store

variable {stored : IntegrityShieldCR} {«namespace» name : String}

omit [Reflect] in
/-- What is left when the finalizer has been given up. -/
theorem store_of_finalize (hfinalizer : cleanupFinalizerName ∈ cr.finalizers)
    (hothers : s.Always fun t => ∀ k ∈ cleanupKeys env cr, ∀ store, store k = none →
      t.others store k = none)
    (h : ((finalize env cr).run srv s).1 = .proceed) {k : Key} (hk : k ∈ cleanupKeys env cr)
    (hne : k ≠ cr.key) : ((finalize env cr).run srv s).2.store k = none := by
  rw [run_finalize hfinalizer] at h ⊢
  by_cases hdone : ((deleteClusterScopedChildrenResources env cr).run srv s).1 = .proceed
  · rw [if_pos hdone]
    refine (Session.ask_store_of_ne _ srv _ hne).trans ?_
    exact Client.always_run (deleteClusterScopedChildrenResources env cr) hothers 0 k hk _
      (store_of_cleanup hdone hothers k hk)
  · rw [if_neg hdone] at h
    exact absurd h hdone

omit [Reflect] in
theorem cleanup_ne_fault (hshield : cr.spec.shieldConfig ≠ none) :
    ∀ step ∈ cleanupSteps env cr, ∀ f, step.2 ≠ return .fault f := by
  have hasks : ∀ {p : Step}, p.asks = true → ∀ f, p ≠ return .fault f :=
    fun h _ => Client.ne_pure_of_asks h
  obtain ⟨shieldConfig, hshield⟩ := Option.ne_none_iff_exists'.1 hshield
  unfold cleanupSteps
  simp only [List.forall_mem_append, List.forall_mem_cons, List.not_mem_nil, false_implies,
    implies_true, and_true]
  refine ⟨⟨⟨fun f => ?_, hasks rfl⟩, ?_⟩, hasks rfl, hasks rfl, ?_, hasks rfl, hasks rfl,
    hasks rfl, hasks rfl⟩
  · rw [deleteWebhook, buildMutatingWebhookConfigurationForIShield, hshield]
    exact hasks rfl f
  · split
    · exact List.forall_mem_nil _
    · simp only [List.forall_mem_cons, List.not_mem_nil, false_implies, implies_true, and_true]
      exact ⟨hasks rfl, hasks rfl⟩
  · obtain ⟨enabled, hhelm⟩ : ∃ enabled, cr.helmEnabled = .ok enabled := by
      rw [IntegrityShieldCR.helmEnabled, hshield]
      exact ⟨_, rfl⟩
    rw [hhelm]
    cases enabled with
    | true => exact hasks rfl
    | false => exact fun f h => by cases h

omit [Reflect] in
/-- When no request fails and the others leave the objects alone, all of them are deleted. -/
theorem cleanup_proceed (hshield : cr.spec.shieldConfig ≠ none)
    (hthrough : s.Always fun t => t.fails = false)
    (halone : s.Always fun t => ∀ k ∈ cleanupKeys env cr, ∀ store, t.others store k = store k) :
    ((deleteClusterScopedChildrenResources env cr).run srv s).1 = .proceed := by
  refine inOrder_proceed (T := fun t => t.fails = false ∧ ∀ k ∈ cleanupKeys env cr, ∀ store,
    t.others store k = store k) (fun p hp s hturns => ?_) fun n => ⟨hthrough n, halone n⟩
  obtain ⟨step, hstep, rfl⟩ := List.mem_map.1 hp
  have hfault := cleanup_ne_fault hshield step hstep
  have hkeys : ∀ k ∈ step.1, k ∈ cleanupKeys env cr := fun k hk =>
    List.mem_flatMap.2 ⟨step, hstep, hk⟩
  cases cleanupShape step hstep with
  | discard k =>
      rw [(run_discard (fun n => (hturns n).1) fun n =>
        (hturns n).2 k (hkeys k (List.mem_singleton_self k))).1]
      rfl
  | skipped => rfl
  | faulty ks f => exact absurd rfl (hfault f)

/-- The resource itself is none of the objects that are deleted. -/
theorem store_key_cleanup
    (halone : s.Always fun t => ∀ store, t.others store cr.key = store cr.key) :
    ((deleteClusterScopedChildrenResources env cr).run srv s).2.store cr.key =
      s.store cr.key := by
  have hrequests : (deleteClusterScopedChildrenResources env cr).Requests fun r =>
      r.isGet = true ∨ r.key ≠ cr.key :=
    requests_inOrder (requests_cleanup (fun _ => Or.inl rfl) fun k hk =>
      Or.inr fun heq : k = cr.key => key_notMem_cleanupKeys (heq ▸ hk))
  exact Client.store_of_requests hrequests halone

end Store

end

end Operator
end IntegrityShield
