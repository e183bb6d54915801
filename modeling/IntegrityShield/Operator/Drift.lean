/-
# Success, and what it does not say

A pass that ends well has only looked (`reconcile_done`): it has found the keys, all the
managed objects, a deployment that is as expected and available, and the webhook, and apart
from writing again what is compared it has written nothing.  So a pass that creates or deletes
anything, or brings the deployment up to date, asks for another one.

But it says little about what was found.  The secret with the certificate, the account, the
roles and the service are only looked for: once they are there no number of passes changes
them, whatever has been written to them (`left_alone_stays`).
-/

import IntegrityShield.Operator.Convergence

namespace IntegrityShield
namespace Operator

open ObjectStore Reconciler

section

variable [Reflect] {env : Environment} {cr : IntegrityShieldCR} {srv : Server Key.Content}
  {s : Session Key.Content}

/-! ## A pass that ends well -/

omit [Reflect] in
/-- After a creation there is always more to do. -/
theorem ofCreate_ne_proceed (answer : Except Failure Unit) :
    Outcome.ofCreate answer ≠ .proceed := by
  rcases answer with (_ | _ | _) | _ <;> exact fun h => by cases h

omit [Reflect] in
theorem registerWebhook_ne_proceed {expected : Object .mutatingWebhookConfiguration} :
    ((registerWebhook cr expected).run srv s).1 ≠ .proceed := by
  rw [registerWebhook, Client.run_bind, Client.run_bind]
  split
  · rw [Client.run_bind]
    exact ofCreate_ne_proceed _
  · exact ofCreate_ne_proceed _

omit [Reflect] in
/-- The webhook is there when there is nothing left to do about it. -/
theorem createOrUpdateWebhook_proceed
    (h : ((createOrUpdateWebhook env cr).run srv s).1 = .proceed) :
    ∃ webhook, ((createOrUpdateWebhook env cr).run srv s).2.log =
      s.log ++ [⟨.get cr.webhookKey, .ok webhook⟩] := by
  unfold createOrUpdateWebhook at h ⊢
  cases hbuild : buildMutatingWebhookConfigurationForIShield env cr with
  | error f =>
      rw [hbuild] at h
      cases h
  | ok expected =>
      have hkey : cr.webhookKey = .webhook expected.name :=
        congrArg Key.webhook (buildMutatingWebhookConfigurationForIShield_name hbuild).symm
      rw [hbuild, withBuilt, Client.run_bind, Client.run_get] at h
      rw [hkey, withBuilt, Client.run_bind, Client.run_get]
      cases hget : (s.ask srv (.get (.webhook expected.name))).1 with
      | ok webhook =>
          refine ⟨webhook, ?_⟩
          simp only [hget, Client.run_pure, Session.ask_log]
      | error e =>
          simp only [hget] at h
          cases e with
          | notFound => exact absurd h registerWebhook_ne_proceed
          | alreadyExists => cases h
          | other => cases h

omit [Reflect] in
/-- A deletion is never the end. -/
theorem discard_ne_proceed {k : Key} : ((discard k).run srv s).1 ≠ .proceed := by
  unfold Reconciler.discard
  rw [Client.run_bind, Client.run_get]
  split
  · rw [Client.run_bind, Client.run_pure, Client.run_delete]
    cases ((s.ask srv (.get k)).2.ask srv (.delete k)).1 <;> exact fun h => by cases h
  · exact fun h => by cases h
  · exact fun h => by cases h

omit [Reflect] in
/-- The last stage is done only with an available server and its webhook. -/
theorem webhookStage_proceed (h : ((webhookStage env cr).run srv s).1 = .proceed) :
    ∃ deployment webhook, 0 < deployment.availableReplicas ∧
      ((webhookStage env cr).run srv s).2.log = s.log ++
        [⟨.get cr.deploymentKey, .ok deployment⟩, ⟨.get cr.webhookKey, .ok webhook⟩] := by
  rw [webhookStage, Client.run_bind, run_isDeploymentAvailable] at h ⊢
  by_cases havailable : isAvailable (s.ask srv (.get cr.deploymentKey)).1 = true
  · rw [if_pos havailable] at h ⊢
    obtain ⟨webhook, hlog⟩ := createOrUpdateWebhook_proceed h
    rw [hlog, Session.ask_log]
    cases hget : (s.ask srv (.get cr.deploymentKey)).1 with
    | ok deployment =>
        rw [hget] at havailable
        exact ⟨deployment, webhook, of_decide_eq_true havailable, List.append_assoc ..⟩
    | error e =>
        rw [hget] at havailable
        cases havailable
  · rw [if_neg havailable, deleteWebhook] at h
    cases hbuild : buildMutatingWebhookConfigurationForIShield env cr with
    | error f =>
        rw [hbuild] at h
        cases h
    | ok expected =>
        rw [hbuild] at h
        exact absurd h discard_ne_proceed

/-- Stages that all let the pass go on have made only quiet requests. -/
theorem stages_quiet (h : ((pass (stages env cr)).run srv s).1 = .proceed) :
    ∃ new, ((pass (stages env cr)).run srv s).2.log = s.log ++ new ∧ ∀ e ∈ new, Quiet e.1 := by
  refine inOrder_log_forall rfl (fun p hp s hgood => ?_) h
  obtain ⟨stage, hstage, rfl⟩ := List.mem_map.1 hp
  obtain ⟨new, hlog, hquiet, _⟩ :=
    (stageShape stage hstage).proceed (Outcome.isProceed_iff.1 hgood)
  exact ⟨new, hlog, hquiet⟩

/-- **What a pass that ends well has seen.**  Whatever the others do and whichever requests
fail, a pass for a resource that is not under deletion ends well only if it has found the
secrets of all keys, all the managed objects, a deployment that is as expected and available,
and the webhook; and it has created and deleted nothing, and written only what is written again
in passing. -/
theorem reconcile_done (env : Environment) («namespace» name : String)
    (srv : Server Key.Content) (s : Session Key.Content) (stored : IntegrityShieldCR)
    (hs : s.log = []) (hget : (s.ask srv (.get (.resource «namespace» name))).1 = .ok stored)
    (hlive : (env.effective stored).deletionTimestamp = false)
    (h : ((reconcile env «namespace» name).run srv s).1 = .proceed) :
    let cr := env.effective stored
    let log := ((reconcile env «namespace» name).run srv s).2.log
    Prepared env cr log ∧ Found cr.deploymentKey (fun found => 0 < found.availableReplicas) log ∧
      Found cr.webhookKey (fun _ => True) log ∧ ∀ e ∈ log, Quiet e.1 := by
  have hnot : ¬(env.effective stored).deletionTimestamp = true := by
    rw [hlive]
    exact Bool.false_ne_true
  rw [run_reconcile_ok hget, if_neg hnot, run_reconcileLive] at h ⊢
  have hread : (s.ask srv (.get (.resource «namespace» name))).2.log =
      [⟨_, (s.ask srv (.get (.resource «namespace» name))).1⟩] := by
    rw [Session.ask_log, hs, List.nil_append]
  generalize (s.ask srv (.get (.resource «namespace» name))).2 = s' at h hread ⊢
  by_cases hproceed : ((pass (stages env (env.effective stored))).run srv s').1 = .proceed
  swap
  · rw [if_neg hproceed] at h
    exact absurd h hproceed
  rw [if_pos hproceed] at h ⊢
  obtain ⟨new, hnew, hquiet⟩ := stages_quiet hproceed
  obtain ⟨deployment, webhook, havailable, hlog⟩ := webhookStage_proceed h
  dsimp only
  rw [hlog]
  refine ⟨(prepared_of_proceed hproceed).mono (List.subset_append_left _ _),
    ⟨deployment, ?_, havailable⟩, ⟨webhook, ?_, trivial⟩, ?_⟩
  · exact List.mem_append_right _ (List.mem_cons_self ..)
  · exact List.mem_append_right _ (List.mem_cons_of_mem _ (List.mem_singleton_self _))
  · rw [hnew, hread]
    refine List.forall_mem_append.2 ⟨List.forall_mem_append.2
      ⟨List.forall_mem_singleton.2 trivial, hquiet⟩, ?_⟩
    exact List.forall_mem_cons.2 ⟨trivial, List.forall_mem_singleton.2 trivial⟩

/-! ## Objects that are left alone -/

/-- What a pass may ask. -/
theorem requests_reconcile {«namespace» name : String} {P : Request Key.Content → Prop}
    (hget : ∀ k, P (.get k)) (hlive : ∀ cr, (reconcileLive env cr).Requests P)
    (hfinalize : ∀ cr, (finalize env cr).Requests P) :
    (reconcile env «namespace» name).Requests P := by
  refine Client.requests_bind (Client.requests_request (hget _)) fun found => ?_
  match found with
  | .error .notFound => exact Client.requests_pure _
  | .error .alreadyExists => exact Client.requests_pure _
  | .error .other => exact Client.requests_pure _
  | .ok stored =>
      dsimp only
      split
      · exact hfinalize _
      · exact hlive _

/-- The requests of a pass leave an object alone that is only looked for, once it is there. -/
theorem requests_reconcile_leftAlone {«namespace» name : String} {k : Key} {a : k.Content}
    (hk : k.kind.isLeftAlone = true) (hscope : k.kind.isClusterScoped = false) :
    (reconcile env «namespace» name).Requests fun r =>
      ∀ store, store k = some a → (srv.answer r store).2 k = some a := by
  -- a request for another key, or one to create the object again
  have hother : ∀ r : Request Key.Content, k ≠ r.key → ∀ store : Store Key.Content,
      store k = some a → (srv.answer r store).2 k = some a := by
    intro r hne store hstore
    rw [srv.answer_of_ne r store hne, hstore]
  have hkinds : ∀ k' : Key, k'.kind.isLeftAlone = false → k ≠ k' := by
    rintro k' hk' rfl
    rw [hk] at hk'
    cases hk'
  refine requests_reconcile (fun k' store hstore => ?_) (fun cr => ?_) fun cr => ?_
  · rw [srv.answer_isGet rfl, hstore]
  · refine requests_reconcileLive.mono fun r hr => ?_
    cases r with
    | get k' =>
        intro store hstore
        rw [srv.answer_isGet rfl, hstore]
    | create k' b =>
        by_cases hne : k = k'
        · subst hne
          intro store hstore
          rw [srv.answer_create_some hstore]
          exact hstore
        · exact hother _ hne
    | update k' b =>
        refine hother _ (hkinds k' ?_)
        rcases hr with ⟨_, hover | hdeployment⟩ | rfl
        · revert hover
          cases k'.kind <;> decide
        · rw [hdeployment]
          rfl
        · rfl
    | delete k' =>
        obtain rfl : k' = _ := hr
        exact hother _ (hkinds _ rfl)
  · refine requests_finalize (fun k' store hstore => ?_) (fun k' hk' => hother _ ?_)
      (hother _ (hkinds _ rfl))
    · rw [srv.answer_isGet rfl, hstore]
    · rintro rfl
      rw [(mem_cleanupKeys_iff.1 hk').1] at hscope
      cases hscope

/-- A store with an empty certificate. -/
def tamperedStore : Store Key.Content :=
  Function.update leavingStore (⟨.secret, "shield-ns", "shield-tls"⟩ : Key) (some {})

end

/-! A cluster where everything is there, and deployments are available as soon as they are
written. -/

/-- What the objects of the cluster hold. -/
def completeContent (wanted : Wanted) : ∀ kind : Kind, kind.Content
  | .integrityShield => keyedCR
  | .customResourceDefinition => (buildShieldConfigCRD keyedCR).content
  | .shieldConfig => wanted.config.content
  | .signerConfig => none
  | .resourceSigningProfile => ({}, {})
  | .secret => {}
  | .serviceAccount => ∅
  | .clusterRole => (buildClusterRoleForIShield keyedCR).content
  | .clusterRoleBinding => (buildClusterRoleBindingForIShield keyedCR).content
  | .role => (buildRoleForIShield keyedCR).content
  | .roleBinding => (buildRoleBindingForIShield keyedCR).content
  | .podSecurityPolicy => ∅
  | .deployment => { wanted.deployment.content with availableReplicas := 1 }
  | .service => (buildServiceForIShield keyedCR).content
  | .mutatingWebhookConfiguration => []
  | .event => {}

def completeStore (wanted : Wanted) : Store Key.Content :=
  fun k => some (completeContent wanted k.kind)

def runningServer : Server Key.Content where
  persist
    | ⟨.deployment, _, _⟩, _, a => { (a : Deployment) with availableReplicas := 1 }
    | _, _, a => a

/-- Deployments are available, and the others are there. -/
def Available : ∀ k : Key, k.Content → Prop
  | ⟨.deployment, _, _⟩, found => 0 < Deployment.availableReplicas found
  | _, _ => True

theorem available_persist (k : Key) (old : Option k.Content) (a : k.Content) :
    Available k (runningServer.persist k old a) := by
  obtain ⟨kind, ns, name⟩ := k
  cases kind <;> first | trivial | exact Int.one_pos

theorem available_completeStore (wanted : Wanted) (k : Key) :
    Held Available k (completeStore wanted) := by
  refine ⟨_, rfl, ?_⟩
  obtain ⟨kind, ns, name⟩ := k
  cases kind <;> first | trivial | exact Int.one_pos

theorem fit_completeStore [Reflect] {wanted : Wanted}
    (h : equalDeployments wanted.deployment.content (completeContent wanted .deployment) = .ok true)
    (k : Key) : Held (Fit keyedCR wanted) k (completeStore wanted) := by
  refine ⟨_, rfl, ?_⟩
  obtain ⟨kind, ns, name⟩ := k
  cases kind <;> trivial

theorem keeps_runningServer {env : Environment} {cr : IntegrityShieldCR} {wanted : Wanted}
    (hbuilds : Builds env cr wanted) : @Keeps Reflect.exact runningServer cr wanted := by
  have hcontainers := containers_ne_nil hbuilds.deployment
  exact @Keeps.mk Reflect.exact _ _ _ (fun _ => rfl) (equalDeployments_exact hcontainers rfl rfl)
    fun _ _ => equalDeployments_exact hcontainers rfl rfl

theorem gentle_runningServer [Reflect] (env : Environment) (cr : IntegrityShieldCR) :
    (pass (stages env cr)).Requests (Gentle runningServer Available fun _ => True) := by
  refine requests_pass_stages.mono fun r hr => ?_
  cases r with
  | get k => trivial
  | create k a => exact fun _ => available_persist k none a
  | update k a => exact fun _ old => available_persist k (some old) a
  | delete k => exact hr.elim

/-- In the complete cluster a pass ends well. -/
theorem run_completeStore {wanted : Wanted} (hbuilds : Builds {} keyedCR wanted) :
    letI := Reflect.exact
    ((reconcile {} "shield-ns" "shield").run runningServer
      (aloneSession (completeStore wanted))).1 = .proceed := by
  let _ := Reflect.exact
  let s := aloneSession (completeStore wanted)
  have hfit : ∀ k, Held (Fit keyedCR wanted) k s.store := fit_completeStore
    (equalDeployments_exact (containers_ne_nil hbuilds.deployment) rfl rfl)
  have hthrough : s.Always fun t => t.fails = false := fun _ => rfl
  have halone : s.Always fun t => ∀ store,
      t.others store keyedCR.webhookKey = store keyedCR.webhookKey := fun _ _ => rfl
  have havailable : s.Always (Cooperative Available fun _ => True) :=
    fun _ => ⟨rfl, fun _ _ _ => Or.inl rfl⟩
  have hrun : (reconcile {} "shield-ns" "shield").run runningServer s = _ :=
    run_reconcile_settled hbuilds (keeps_runningServer hbuilds) rfl rfl
      (fun _ => ⟨rfl, fun _ _ _ => Or.inl rfl⟩) (fun k _ => hfit k) fun _ _ k _ => hfit k
  have hwebhook := webhook_pass_stages {} runningServer halone (.resource "shield-ns" "shield")
  -- the deployment is still available, and so the webhook is looked for
  have hread : Held Available keyedCR.deploymentKey
      (s.ask runningServer (.get (.resource "shield-ns" "shield"))).2.store := by
    have hstored : s.wait.store (.resource "shield-ns" "shield") = some keyedCR := rfl
    rw [(get_some (hthrough 0) runningServer hstored).2]
    exact available_completeStore wanted _
  have hheld := held_run (gentle_runningServer {} keyedCR) trivial
    (havailable.ask runningServer _) hread
  rw [hrun]
  generalize hs' : ((pass (stages {} keyedCR)).run runningServer
    (s.ask runningServer (.get (.resource "shield-ns" "shield"))).2).2 = s' at hwebhook hheld ⊢
  have hturns : s'.Always (Cooperative Available fun _ => True) :=
    hs' ▸ Client.always_run _ (havailable.ask runningServer _)
  obtain ⟨found, hfound, hreplicas⟩ := (hturns 0).held trivial hheld
  have hreplicas : 0 < found.availableReplicas := hreplicas
  obtain ⟨webhook, hbuildWebhook⟩ := hbuilds.exists_webhook
  have hstage := run_webhookStage runningServer hbuildWebhook (fun n => (hturns n).through)
    (hs' ▸ Client.always_run _ (halone.ask runningServer _))
  rw [(get_some (hturns 0).through runningServer hfound).1, isAvailable,
    if_pos (decide_eq_true hreplicas), hwebhook] at hstage
  exact hstage.2.trans (if_neg (Option.some_ne_none _))

theorem reconcile_done_complete :
    letI := Reflect.exact
    ∃ wanted, Builds {} keyedCR wanted ∧
      Found keyedCR.webhookKey (fun _ => True) ((reconcile {} "shield-ns" "shield").run
        runningServer (aloneSession (completeStore wanted))).2.log := by
  obtain ⟨wanted, hbuilds⟩ : ∃ wanted, Builds {} keyedCR wanted :=
    ⟨⟨_, _⟩, rfl, rfl, List.forall_mem_nil _⟩
  exact ⟨wanted, hbuilds, (@reconcile_done Reflect.exact {} "shield-ns" "shield" runningServer
    (aloneSession (completeStore wanted)) keyedCR rfl rfl rfl (run_completeStore hbuilds)).2.2.1⟩

end Operator
end IntegrityShield
