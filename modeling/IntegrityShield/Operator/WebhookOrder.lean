/-
# When the webhook is registered and removed

A webhook that is registered before its server can answer blocks the cluster, and one
that is removed leaves it without protection.  The operator writes the webhook only in
the last stage of a pass, after it has found the key secrets and all the objects of the
earlier stages; it registers it after it has found the deployment available, and removes
it after it has not (`webhook_written_after`).  Both hold whatever others do to the
cluster meanwhile, and whichever requests fail.

A deployment that cannot be read counts as one that is not available, so that one failed
request can remove the webhook of a server that is up.
-/

import IntegrityShield.Operator.Cleanup

namespace IntegrityShield
namespace Operator

open ObjectStore Reconciler

/-- The key of the server's deployment. -/
abbrev IntegrityShieldCR.deploymentKey (cr : IntegrityShieldCR) : Key :=
  ⟨.deployment, cr.namespace, cr.name⟩

/-- The key of a resource's webhook. -/
abbrev IntegrityShieldCR.webhookKey (cr : IntegrityShieldCR) : Key :=
  .webhook cr.getWebhookConfigName

/-- A request that writes a webhook. -/
def WritesWebhook : Request Key.Content → Prop
  | .get _ => False
  | .create k _ => k.kind = .mutatingWebhookConfiguration
  | .update k _ => k.kind = .mutatingWebhookConfiguration
  | .delete k => k.kind = .mutatingWebhookConfiguration

instance : DecidablePred WritesWebhook
  | .get _ => inferInstanceAs (Decidable False)
  | .create k _ => inferInstanceAs (Decidable (k.kind = .mutatingWebhookConfiguration))
  | .update k _ => inferInstanceAs (Decidable (k.kind = .mutatingWebhookConfiguration))
  | .delete k => inferInstanceAs (Decidable (k.kind = .mutatingWebhookConfiguration))

section

variable [Reflect]

/-- A pass has found all that has to be there before the webhook. -/
structure Prepared (env : Environment) (cr : IntegrityShieldCR) (log : List (Event Key.Content)) :
    Prop where
  keys : ∀ keyConf ∈ cr.spec.keyConfig,
    Found (⟨.secret, cr.namespace, keyConf.secretName⟩ : Key) (fun _ => True) log
  managed : ∀ k ∈ managedKeys env cr, Found k (fun _ => True) log
  deployment : ∃ expected, buildDeploymentForIShield cr = .ok expected ∧
    Found cr.deploymentKey (fun found => equalDeployments expected.content found = .ok true) log

variable {env : Environment} {cr : IntegrityShieldCR} {srv : Server Key.Content}
  {s : Session Key.Content}

theorem Prepared.mono {log log' : List (Event Key.Content)} (h : Prepared env cr log)
    (hlog : log ⊆ log') : Prepared env cr log' where
  keys keyConf hkeyConf := (h.keys keyConf hkeyConf).mono hlog fun _ => id
  managed k hk := (h.managed k hk).mono hlog fun _ => id
  deployment := by
    obtain ⟨expected, hbuild, hfound⟩ := h.deployment
    exact ⟨expected, hbuild, hfound.mono hlog fun _ => id⟩

/-- A stage that is in the list has been run, when they all let the pass go on. -/
theorem stage_run {stage : List Key × Step} (hstage : stage ∈ stages env cr)
    (h : ((pass (stages env cr)).run srv s).1 = .proceed) :
    ∃ s' : Session Key.Content, (stage.2.run srv s').1 = .proceed ∧
      (stage.2.run srv s').2.log ⊆ ((pass (stages env cr)).run srv s).2.log := by
  obtain ⟨s', hproceed, hlog⟩ := inOrder_log rfl h (List.mem_map_of_mem hstage)
  exact ⟨s', Outcome.isProceed_iff.1 hproceed, hlog⟩

/-- Stages that all let the pass go on have prepared the webhook. -/
theorem prepared_of_proceed (h : ((pass (stages env cr)).run srv s).1 = .proceed) :
    Prepared env cr ((pass (stages env cr)).run srv s).2.log where
  keys := by
    have hstage : ([], keyRingStage cr) ∈ stages env cr := by simp [stages]
    obtain ⟨s', hproceed, hlog⟩ := stage_run hstage h
    intro keyConf hkeyConf
    exact (keyRingStage_proceed hproceed keyConf hkeyConf).mono hlog fun _ => id
  managed := by
    intro k hk
    obtain ⟨stage, hstage, hk⟩ := List.mem_flatMap.1 hk
    obtain ⟨s', hproceed, hlog⟩ := stage_run hstage h
    obtain ⟨new, hnew, _, hfound⟩ := (stageShape stage hstage).proceed hproceed
    refine (hfound k hk).mono (fun e he => hlog ?_) fun _ => id
    exact hnew ▸ List.mem_append_right _ he
  deployment := by
    have hstage : ([cr.deploymentKey], createOrUpdateWebhookDeployment cr) ∈ stages env cr := by
      simp [stages, IntegrityShieldCR.getIShieldServerDeploymentName]
    obtain ⟨s', hproceed, hlog⟩ := stage_run hstage h
    unfold createOrUpdateWebhookDeployment at hproceed hlog
    cases hbuild : buildDeploymentForIShield cr with
    | error f =>
        rw [hbuild] at hproceed
        cases hproceed
    | ok expected =>
        rw [hbuild] at hproceed hlog
        obtain ⟨new, hnew, hfound, _⟩ := createOrUpdateDeployment_proceed hproceed
        rw [buildDeploymentForIShield_name hbuild] at hfound
        refine ⟨expected, rfl, hfound.mono (fun e he => hlog ?_) fun _ => id⟩
        exact hnew ▸ List.mem_append_right _ he

/-- A pass goes through its stages, and then comes the webhook. -/
theorem run_reconcileLive :
    (reconcileLive env cr).run srv s =
      if ((pass (stages env cr)).run srv s).1 = .proceed then
        (webhookStage env cr).run srv ((pass (stages env cr)).run srv s).2
      else (pass (stages env cr)).run srv s := by
  rw [reconcileLive, run_inOrder_append rfl, run_inOrder_singleton]
  rfl

theorem not_writesWebhook_of_stageRequest {r : Request Key.Content}
    (h : StageRequest (managedKeys env cr) r) : ¬WritesWebhook r := by
  have hmanaged : ∀ k ∈ managedKeys env cr, k.kind ≠ .mutatingWebhookConfiguration := by
    intro k hk hkind
    have h := isManaged_of_mem_managedKeys k hk
    rw [hkind] at h
    cases h
  cases r with
  | get k => exact id
  | create k a => exact hmanaged k h
  | update k a => exact hmanaged k h.1
  | delete k => exact h.elim

/-- Whether an answer shows an available deployment. -/
def isAvailable : Except Failure Deployment → Bool
  | .ok found => decide (0 < found.availableReplicas)
  | .error _ => false

omit [Reflect] in
theorem run_isDeploymentAvailable :
    (isDeploymentAvailable cr).run srv s =
      (isAvailable (s.ask srv (.get cr.deploymentKey)).1,
        (s.ask srv (.get cr.deploymentKey)).2) := by
  rw [isDeploymentAvailable, Client.run_bind, Client.run_get]
  cases (s.ask srv (.get cr.deploymentKey)).1 <;> rfl

omit [Reflect] in
/-- What the last stage writes of the webhook, and what it has seen before. -/
theorem webhookStage_writes {before after : List (Event Key.Content)} {e : Event Key.Content}
    (hold : ∀ e ∈ s.log, ¬WritesWebhook e.1) (he : WritesWebhook e.1)
    (hlog : ((webhookStage env cr).run srv s).2.log = before ++ e :: after) :
    s.log ⊆ before ∧ ∃ answer, (⟨.get cr.deploymentKey, answer⟩ : Event Key.Content) ∈ before ∧
      if isAvailable answer then ∃ webhook, e.1 = .create cr.webhookKey webhook
      else e.1 = .delete cr.webhookKey := by
  rw [webhookStage, Client.run_bind, run_isDeploymentAvailable] at hlog
  have hget : ∀ e ∈ (s.ask srv (.get cr.deploymentKey)).2.log, ¬WritesWebhook e.1 := by
    rw [Session.ask_log]
    exact List.forall_mem_append.2 ⟨hold, List.forall_mem_singleton.2 id⟩
  have hbefore := Client.log_before hlog fun hmem => hget e hmem he
  refine ⟨fun e he => hbefore ?_, _, hbefore (Client.mem_log_ask srv _ s), ?_⟩
  · rw [Session.ask_log]
    exact List.mem_append_left _ he
  have hmem : e ∈ before ++ e :: after := List.mem_append_right _ (List.mem_cons_self ..)
  rw [← hlog] at hmem
  split
  · rename_i havailable
    rw [if_pos havailable] at hmem
    have hrequests : (createOrUpdateWebhook env cr).Requests fun r =>
        WritesWebhook r → ∃ webhook, r = .create cr.webhookKey webhook :=
      requests_createOrUpdateWebhook (fun _ h => h.elim) (fun a _ => ⟨a, rfl⟩)
        (fun _ h => by cases h) fun _ h => by cases h
    obtain ⟨new, hnew, hall⟩ := Client.log_of_requests hrequests srv _
    rw [hnew] at hmem
    exact hall e ((List.mem_append.1 hmem).resolve_left fun hmem => hget e hmem he) he
  · rename_i havailable
    rw [if_neg havailable] at hmem
    have hrequests : (deleteWebhook env cr).Requests fun r =>
        WritesWebhook r → r = .delete cr.webhookKey :=
      requests_deleteWebhook (fun _ h => h.elim) fun _ => rfl
    obtain ⟨new, hnew, hall⟩ := Client.log_of_requests hrequests srv _
    rw [hnew] at hmem
    exact hall e ((List.mem_append.1 hmem).resolve_left fun hmem => hget e hmem he) he

/-- The webhook is written only in the last stage, after the others have let the pass go on. -/
theorem reconcileLive_writes {before after : List (Event Key.Content)} {e : Event Key.Content}
    (hold : ∀ e ∈ s.log, ¬WritesWebhook e.1) (he : WritesWebhook e.1)
    (hlog : ((reconcileLive env cr).run srv s).2.log = before ++ e :: after) :
    Prepared env cr before ∧
      ∃ answer, (⟨.get cr.deploymentKey, answer⟩ : Event Key.Content) ∈ before ∧
        if isAvailable answer then ∃ webhook, e.1 = .create cr.webhookKey webhook
        else e.1 = .delete cr.webhookKey := by
  have hstages : ∀ e ∈ ((pass (stages env cr)).run srv s).2.log, ¬WritesWebhook e.1 := by
    obtain ⟨new, hnew, hall⟩ := Client.log_of_requests requests_pass_stages srv s
    rw [hnew]
    exact List.forall_mem_append.2
      ⟨hold, fun e he => not_writesWebhook_of_stageRequest (hall e he)⟩
  rw [run_reconcileLive] at hlog
  split at hlog
  · rename_i hproceed
    obtain ⟨hbefore, hanswer⟩ := webhookStage_writes hstages he hlog
    exact ⟨(prepared_of_proceed hproceed).mono hbefore, hanswer⟩
  · have hmem : e ∈ before ++ e :: after := List.mem_append_right _ (List.mem_cons_self ..)
    rw [← hlog] at hmem
    exact absurd he (hstages e hmem)

/-- Under deletion the webhook is deleted, and only if the finalizer is there. -/
theorem finalize_writes_webhook {e : Event Key.Content}
    (hold : ∀ e ∈ s.log, ¬WritesWebhook e.1) (he : WritesWebhook e.1)
    (hmem : e ∈ ((finalize env cr).run srv s).2.log) :
    cleanupFinalizerName ∈ cr.finalizers ∧ e.1 = .delete cr.webhookKey := by
  refine ⟨?_, ?_⟩
  · by_contra hfinalizer
    rw [finalize, if_neg hfinalizer] at hmem
    exact hold e hmem he
  · have hrequests : (finalize env cr).Requests fun r =>
        WritesWebhook r → r = .delete cr.webhookKey := by
      refine requests_finalize (fun _ h => h.elim) (fun k hk hkind => ?_) fun h => by cases h
      rcases (mem_cleanupKeys_iff.1 hk).2 with hmanaged | rfl
      · have h := isManaged_of_mem_managedKeys k hmanaged
        rw [show k.kind = .mutatingWebhookConfiguration from hkind] at h
        cases h
      · rfl
    obtain ⟨new, hnew, hall⟩ := Client.log_of_requests hrequests srv s
    rw [hnew] at hmem
    exact hall e ((List.mem_append.1 hmem).resolve_left fun hmem => hold e hmem he) he

end

end Operator
end IntegrityShield
