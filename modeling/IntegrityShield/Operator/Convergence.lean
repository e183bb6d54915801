/-
# Convergence

If the cluster answers, nobody takes away what the operator has made, and the store keeps
the fields of a deployment that the operator compares, then after as many passes as there
are stages all the managed objects are there, and stay.  From then on the webhook follows
the server: a pass ends with the webhook if and only if the deployment is available
(`reconcile_converges`).

The others may do a lot meanwhile: change the status of the deployment, write objects
again, create them first.  They may not delete what is managed, and not change what is
compared.
-/

import IntegrityShield.Operator.WebhookOrder

namespace IntegrityShield
namespace Operator

open ObjectStore Reconciler

section

variable [Reflect]

/-- What is built for a resource, and compared with what is found. -/
structure Wanted where
  config : Object .shieldConfig
  deployment : Object .deployment

/-- What the objects are wanted to be: the resource the one that was stored, the configuration
the one that is built, the deployment one that passes for it, and the others only there. -/
def Fit (stored : IntegrityShieldCR) (wanted : Wanted) : ∀ k : Key, k.Content → Prop
  | ⟨.integrityShield, _, _⟩, found => found = stored
  | ⟨.shieldConfig, _, _⟩, found => found = wanted.config.content
  | ⟨.deployment, _, _⟩, found => equalDeployments wanted.deployment.content found = .ok true
  | _, _ => True

/-- The store keeps what is written of the configuration, and what is compared of the
deployment. -/
structure Keeps (srv : Server Key.Content) (cr : IntegrityShieldCR) (wanted : Wanted) : Prop where
  config : ∀ old, srv.persist ⟨.shieldConfig, cr.namespace, wanted.config.name⟩ old
    wanted.config.content = wanted.config.content
  create : equalDeployments wanted.deployment.content
    (srv.persist ⟨.deployment, cr.namespace, wanted.deployment.name⟩ none
      wanted.deployment.content) = .ok true
  update : ∀ found old, equalDeployments wanted.deployment.content
    (srv.persist ⟨.deployment, cr.namespace, wanted.deployment.name⟩ (some old)
      (updatedDeployment wanted.deployment.content found)) = .ok true

/-- All that the stages build can be built. -/
structure Builds (env : Environment) (cr : IntegrityShieldCR) (wanted : Wanted) : Prop where
  config : buildShieldConfigForIShield env cr = .ok wanted.config
  deployment : buildDeploymentForIShield cr = .ok wanted.deployment
  profiles : ∀ prof ∈ cr.spec.resourceSigningProfiles,
    ∃ object, buildResourceSigningProfileForIShield prof = .ok object

variable {env : Environment} {stored cr : IntegrityShieldCR} {wanted : Wanted}
  {srv : Server Key.Content} {s : Session Key.Content}

omit [Reflect] in
theorem Builds.exists_shieldConfig (h : Builds env cr wanted) :
    ∃ shieldConfig, cr.spec.shieldConfig = some shieldConfig := by
  obtain ⟨shieldConfig, h, _⟩ := Go.bind_eq_ok.1 h.config
  exact ⟨shieldConfig, Go.deref_eq_ok.1 h⟩

omit [Reflect] in
theorem Builds.exists_webhook (h : Builds env cr wanted) :
    ∃ webhook, buildMutatingWebhookConfigurationForIShield env cr = .ok webhook := by
  obtain ⟨shieldConfig, hshield⟩ := h.exists_shieldConfig
  rw [buildMutatingWebhookConfigurationForIShield, hshield]
  exact ⟨_, rfl⟩

theorem fit_of_isLeftAlone {k : Key} (hk : k.kind.isLeftAlone = true) (a : k.Content) :
    Fit stored wanted k a := by
  obtain ⟨kind, ns, name⟩ := k
  cases kind <;> trivial

theorem fit_of_isOverwritten {k : Key} (hk : k.kind.isOverwritten = true)
    (hne : (k.kind == .shieldConfig) = false) (a : k.Content) : Fit stored wanted k a := by
  obtain ⟨kind, ns, name⟩ := k
  cases kind <;> trivial

/-- Deployments can be compared when one is expected that has a container. -/
theorem equalDeployments_returns {expected : Deployment}
    (h : expected.spec.template.spec.containers ≠ []) (found : Deployment) (f : Fault) :
    equalDeployments expected found ≠ .error f := by
  unfold equalDeployments equalPods
  split_ifs with hlabels hpod hannotations haccount hlength
  · intro h
    cases h
  · intro h
    cases h
  · intro h
    cases h
  · intro h
    cases h
  · intro h
    cases h
  · obtain ⟨first, rest, hfirst⟩ := List.exists_cons_of_ne_nil h
    cases hfound : found.spec.template.spec.containers with
    | nil =>
        rw [hfound, hfirst] at hlength
        exact absurd (Nat.succ_ne_zero _).symm hlength
    | cons container others =>
        rw [hfirst]
        intro h
        cases h

omit [Reflect] in
theorem containers_ne_nil {expected : Object .deployment}
    (h : buildDeploymentForIShield cr = .ok expected) :
    expected.content.spec.template.spec.containers ≠ [] := by
  obtain ⟨es, _, h⟩ := Go.bind_eq_ok.1 h
  obtain ⟨http, _, h⟩ := Go.bind_eq_ok.1 h
  rw [← Except.ok.inj h]
  exact List.cons_ne_nil _ _

/-! ## The stages settle their objects -/

variable {ours : Key → Prop}

omit [Reflect] in
/-- The key ring is ready when all its secrets are there. -/
theorem run_isKeyRingReady {fit : ∀ k : Key, k.Content → Prop} {keyConfig : List SecretKeyConfig}
    {«namespace» : String}
    (hours : ∀ keyConf ∈ keyConfig, ours ⟨.secret, «namespace», keyConf.secretName⟩)
    (hturns : s.Always (Cooperative fit ours))
    (hheld : ∀ keyConf ∈ keyConfig, Held fit ⟨.secret, «namespace», keyConf.secretName⟩ s.store) :
    ((isKeyRingReady «namespace» keyConfig).run srv s).1 = true := by
  induction keyConfig generalizing s with
  | nil => rfl
  | cons keyConf rest ih =>
      obtain ⟨hour, hours⟩ := List.forall_mem_cons.1 hours
      obtain ⟨hself, hrest⟩ := List.forall_mem_cons.1 hheld
      obtain ⟨a, ha, _⟩ := (hturns 0).held hour hself
      obtain ⟨hget, hstore⟩ := get_some (hturns 0).through srv ha
      rw [isKeyRingReady, Client.run_bind, Client.run_get]
      simp only [hget]
      refine ih hours (hturns.ask srv _) fun other hother => ?_
      rw [hstore]
      exact (hturns 0).held (hours other hother) (hrest other hother)

variable {given : List Key} {k : Key} {object : k.Content}

theorem settles_createIfMissing (hk : k.kind.isLeftAlone = true) (hour : ours k) :
    Settles srv (Fit stored wanted) ours given [k] (createIfMissing k object) := by
  unfold createIfMissing
  refine settles_ensure hour (fit_of_isLeftAlone hk _) (fun a new hrepair => ?_)
    (fun a _ => fit_of_isLeftAlone hk a) (fun a _ => Or.inl rfl) fun a f h => by cases h
  cases Except.ok.inj hrepair

theorem settles_createOrOverwrite {same : k.Content → Bool} (hk : k.kind.isOverwritten = true)
    (hne : (k.kind == .shieldConfig) = false) (hour : ours k) :
    Settles srv (Fit stored wanted) ours given [k] (createOrOverwrite k object same) := by
  unfold createOrOverwrite
  exact settles_ensure hour (fit_of_isOverwritten hk hne _)
    (fun a new _ old => fit_of_isOverwritten hk hne _) (fun a _ => fit_of_isOverwritten hk hne a)
    (fun a _ => Or.inr rfl) fun a f h => by cases h

theorem settles_shieldConfig (hkeeps : Keeps srv cr wanted)
    (hour : ours ⟨.shieldConfig, cr.namespace, wanted.config.name⟩) :
    Settles srv (Fit stored wanted) ours given
      [⟨.shieldConfig, cr.namespace, wanted.config.name⟩]
      (createOrOverwrite ⟨.shieldConfig, cr.namespace, wanted.config.name⟩ wanted.config.content
        (Reflect.deepEqual wanted.config.content)) := by
  unfold createOrOverwrite
  refine settles_ensure hour (hkeeps.config none) (fun found new hrepair old => ?_)
    (fun found hrepair => ?_) (fun _ _ => Or.inr rfl) fun found f h => by cases h
  · have hrepair := Except.ok.inj hrepair
    split at hrepair
    · cases hrepair
    · rw [← Option.some.inj hrepair]
      exact hkeeps.config (some old)
  · have hrepair := Except.ok.inj hrepair
    split at hrepair
    · rename_i hsame
      exact (Reflect.eq_of_deepEqual hsame).symm
    · cases hrepair

theorem settles_createOrUpdateDeployment (hbuilds : Builds env cr wanted)
    (hkeeps : Keeps srv cr wanted)
    (hour : ours ⟨.deployment, cr.namespace, wanted.deployment.name⟩) :
    Settles srv (Fit stored wanted) ours given
      [⟨.deployment, cr.namespace, wanted.deployment.name⟩]
      (createOrUpdateDeployment cr wanted.deployment) := by
  have hreturns := equalDeployments_returns (containers_ne_nil hbuilds.deployment)
  unfold createOrUpdateDeployment
  refine settles_ensure hour hkeeps.create (fun found new hrepair old => ?_)
    (fun found hrepair => ?_) (fun found hfit => Or.inl ?_) fun found f hrepair => ?_
  · obtain ⟨equal, _, hrepair⟩ := Go.bind_eq_ok.1 hrepair
    cases equal with
    | true => cases Except.ok.inj hrepair
    | false =>
        rw [← Option.some.inj (Except.ok.inj hrepair)]
        exact hkeeps.update found old
  · obtain ⟨equal, hequal, hrepair⟩ := Go.bind_eq_ok.1 hrepair
    cases equal with
    | true => exact hequal
    | false => cases Except.ok.inj hrepair
  · exact Go.bind_eq_ok.2 ⟨true, hfit, rfl⟩
  · rcases Go.bind_eq_error.1 hrepair with h | ⟨equal, _, h⟩
    · exact hreturns found f h
    · cases equal <;> cases h

/-- Every stage that does not fault settles its objects. -/
theorem StageShape.settles {stage : List Key × Step} (h : StageShape env cr stage)
    (hbuilds : Builds env cr wanted) (hkeeps : Keeps srv cr wanted)
    (hours : ∀ k ∈ stage.1, ours k) (hgivenOurs : ∀ k ∈ given, ours k)
    (hkeys : ∀ keyConf ∈ cr.spec.keyConfig, ⟨.secret, cr.namespace, keyConf.secretName⟩ ∈ given)
    (hfault : ∀ f, stage.2 ≠ return .fault f) :
    Settles srv (Fit stored wanted) ours given stage.1 stage.2 := by
  cases h with
  | keyRing =>
      refine ⟨List.forall_mem_nil _, requests_keyRingStage fun _ => trivial,
        fun s hturns hgiven _ => ?_, fun _ _ _ => List.forall_mem_nil _⟩
      rw [keyRingStage, Client.run_bind, run_isKeyRingReady
        (fun keyConf h => hgivenOurs _ (hkeys keyConf h)) hturns
        fun keyConf h => hgiven _ (hkeys keyConf h)]
      rfl
  | skipped => exact settles_pure
  | faulty ks f hks => exact absurd rfl (hfault f)
  | missing k object hk =>
      exact settles_createIfMissing hk (hours k (List.mem_singleton_self k))
  | overwrite k object same hk hne =>
      exact settles_createOrOverwrite hk hne (hours k (List.mem_singleton_self k))
  | shieldConfig object hobject =>
      obtain rfl := Except.ok.inj (hbuilds.config.symm.trans hobject)
      exact settles_shieldConfig hkeeps (hours _ (List.mem_singleton_self _))
  | deployment object hobject =>
      obtain rfl := Except.ok.inj (hbuilds.deployment.symm.trans hobject)
      exact settles_createOrUpdateDeployment hbuilds hkeeps (hours _ (List.mem_singleton_self _))

/-! ## The webhook follows the server -/

section Webhook

omit [Reflect] in
/-- When no request fails and the others leave it alone, a missing webhook is created. -/
theorem run_registerWebhook {expected : Object .mutatingWebhookConfiguration}
    (hthrough : s.Always fun t => t.fails = false)
    (halone : s.Always fun t => ∀ store,
      t.others store (.webhook expected.name) = store (.webhook expected.name))
    (hmissing : s.store (.webhook expected.name) = none) :
    ((registerWebhook cr expected).run srv s).2.store (.webhook expected.name) ≠ none ∧
      ((registerWebhook cr expected).run srv s).1 = .requeue := by
  rw [registerWebhook, Client.run_bind, Client.run_get]
  -- the certificate is read, and then the webhook is still missing
  have hread : (s.ask srv (.get cr.tlsSecretKey)).2.store (.webhook expected.name) = none :=
    (Client.store_of_requests (p := Client.get cr.tlsSecretKey)
      (Client.requests_request (Or.inl rfl)) halone).trans hmissing
  have hthrough := hthrough.ask srv (.get cr.tlsSecretKey)
  have halone := halone.ask srv (.get cr.tlsSecretKey)
  have hwait : (s.ask srv (.get cr.tlsSecretKey)).2.wait.store (.webhook expected.name) = none :=
    (halone 0 _).trans hread
  rw [Client.run_bind, Client.run_create]
  obtain ⟨hanswer, hstore⟩ := Session.ask_of_not_fails (hthrough 0) srv
    (.create (.webhook expected.name)
      (loadCABundle expected.content (s.ask srv (.get cr.tlsSecretKey)).1))
  rw [srv.answer_create_none hwait] at hanswer hstore
  simp only [hanswer, Client.run_bind, Client.run_pure]
  refine ⟨?_, rfl⟩
  rw [Client.store_of_requests (requests_createOrUpdateWebhookEvent (fun _ => Or.inl rfl)
    (fun _ => Or.inr fun h => by cases h) (fun _ => Or.inr fun h => by cases h) _)
    (halone.ask srv _), hstore]
  exact (Function.update_self ..).trans_ne (Option.some_ne_none _)

omit [Reflect] in
/-- When no request fails and the others leave it alone, the webhook is there after it has been
asked for; only if it was there before has the pass nothing more to do. -/
theorem run_createOrUpdateWebhook {expected : Object .mutatingWebhookConfiguration}
    (hbuild : buildMutatingWebhookConfigurationForIShield env cr = .ok expected)
    (hthrough : s.Always fun t => t.fails = false)
    (halone : s.Always fun t => ∀ store, t.others store cr.webhookKey = store cr.webhookKey) :
    ((createOrUpdateWebhook env cr).run srv s).2.store cr.webhookKey ≠ none ∧
      ((createOrUpdateWebhook env cr).run srv s).1 =
        if s.store cr.webhookKey = none then .requeue else .proceed := by
  have hkey : cr.webhookKey = .webhook expected.name :=
    congrArg Key.webhook (buildMutatingWebhookConfigurationForIShield_name hbuild).symm
  rw [hkey] at halone ⊢
  rw [createOrUpdateWebhook, hbuild, withBuilt, Client.run_bind, Client.run_get]
  have hwait : s.wait.store (.webhook expected.name) = s.store (.webhook expected.name) :=
    halone 0 _
  cases hstore : s.store (.webhook expected.name) with
  | some webhook =>
      obtain ⟨hget, hafter⟩ := get_some (hthrough 0) srv (hwait.trans hstore)
      simp only [hget, Client.run_pure, hafter]
      refine ⟨?_, rfl⟩
      rw [hwait, hstore]
      exact Option.some_ne_none _
  | none =>
      obtain ⟨hget, hafter⟩ := get_none (hthrough 0) srv (hwait.trans hstore)
      simp only [hget]
      rw [if_pos trivial]
      exact run_registerWebhook (hthrough.ask srv _) (halone.ask srv _)
        ((congrFun hafter _).trans (hwait.trans hstore))

variable (srv) in
omit [Reflect] in
/-- The last stage, when no request fails and the others leave the webhook alone: the webhook
follows what is seen of the deployment. -/
theorem run_webhookStage {expected : Object .mutatingWebhookConfiguration}
    (hbuild : buildMutatingWebhookConfigurationForIShield env cr = .ok expected)
    (hthrough : s.Always fun t => t.fails = false)
    (halone : s.Always fun t => ∀ store, t.others store cr.webhookKey = store cr.webhookKey) :
    if isAvailable (s.ask srv (.get cr.deploymentKey)).1 then
      ((webhookStage env cr).run srv s).2.store cr.webhookKey ≠ none ∧
        ((webhookStage env cr).run srv s).1 =
          if s.store cr.webhookKey = none then .requeue else .proceed
    else ((webhookStage env cr).run srv s).2.store cr.webhookKey = none ∧
      ((webhookStage env cr).run srv s).1 = .requeue := by
  rw [webhookStage, Client.run_bind, run_isDeploymentAvailable]
  have hstore : (s.ask srv (.get cr.deploymentKey)).2.store cr.webhookKey =
      s.store cr.webhookKey :=
    Client.store_of_requests (p := Client.get cr.deploymentKey)
      (Client.requests_request (Or.inl rfl)) halone
  split
  · rw [← hstore]
    exact run_createOrUpdateWebhook hbuild (hthrough.ask srv _) (halone.ask srv _)
  · rw [deleteWebhook, hbuild, withBuilt, buildMutatingWebhookConfigurationForIShield_name hbuild]
    exact (run_discard (hthrough.ask srv _) (halone.ask srv _)).symm

variable (env srv) in
/-- The stages before it leave the webhook alone. -/
theorem webhook_pass_stages
    (halone : s.Always fun t => ∀ store, t.others store cr.webhookKey = store cr.webhookKey)
    (k : Key) : ((pass (stages env cr)).run srv (s.ask srv (.get k)).2).2.store cr.webhookKey =
      s.store cr.webhookKey := by
  have hnot : cr.webhookKey ∉ managedKeys env cr := fun hk =>
    Bool.false_ne_true (isManaged_of_mem_managedKeys _ hk)
  rw [Client.store_of_requests (requests_pass_stages.mono fun _ hr => hr.isGet_or_ne hnot)
    (halone.ask srv _)]
  exact Client.store_of_requests (p := Client.get k) (Client.requests_request (Or.inl rfl)) halone

omit [Reflect] in
/-- The last stage starts with a look at the deployment. -/
theorem webhookStage_log (env : Environment) (cr : IntegrityShieldCR) (srv : Server Key.Content)
    (s : Session Key.Content) : ∃ new, ((webhookStage env cr).run srv s).2.log = s.log ++
      ⟨.get cr.deploymentKey, (s.ask srv (.get cr.deploymentKey)).1⟩ :: new := by
  rw [webhookStage, Client.run_bind, run_isDeploymentAvailable]
  obtain ⟨new, hnew, _⟩ := Client.log_of_requests (Client.requests_true _) srv
    (s.ask srv (.get cr.deploymentKey)).2
  rw [Session.ask_log, List.append_assoc] at hnew
  exact ⟨new, hnew⟩

end Webhook

/-! ## Passes -/

theorem stages_ne_fault (hbuilds : Builds env cr wanted) :
    ∀ stage ∈ stages env cr, ∀ f, stage.2 ≠ return .fault f := by
  obtain ⟨shieldConfig, hshield⟩ := hbuilds.exists_shieldConfig
  unfold stages
  simp only [List.forall_mem_append, List.forall_mem_cons, List.forall_mem_map, List.not_mem_nil,
    false_implies, implies_true, and_true]
  have hasks : ∀ {p : Step}, p.asks = true → ∀ f, p ≠ return .fault f :=
    fun h _ => Client.ne_pure_of_asks h
  refine ⟨⟨⟨⟨⟨?_, hasks rfl, hasks rfl, hasks rfl, hasks rfl, ?_, ?_, hasks rfl⟩,
    fun prof hprof => ?_⟩, hasks rfl, hasks rfl, hasks rfl, hasks rfl, hasks rfl, hasks rfl⟩, ?_⟩,
    hasks rfl, ?_, hasks rfl⟩
  · unfold keyRingStage
    cases cr.spec.keyConfig with
    | nil => exact fun _ h => by cases h
    | cons keyConf rest => exact hasks rfl
  · have hhelm : ∃ enabled, cr.helmEnabled = .ok enabled := by
      rw [IntegrityShieldCR.helmEnabled, hshield]
      exact ⟨_, rfl⟩
    obtain ⟨enabled, hhelm⟩ := hhelm
    rw [hhelm]
    cases enabled with
    | true => exact hasks rfl
    | false => exact fun f h => by cases h
  · unfold createOrUpdateShieldConfigCR
    rw [hbuilds.config]
    exact hasks rfl
  · obtain ⟨profile, hprofile⟩ := hbuilds.profiles prof hprof
    unfold createOrUpdateResourceSigningProfileCR
    rw [hprofile]
    exact hasks rfl
  · split
    · exact List.forall_mem_nil _
    · simp only [List.forall_mem_cons, List.not_mem_nil, false_implies, implies_true, and_true]
      exact ⟨hasks rfl, hasks rfl, hasks rfl, hasks rfl⟩
  · unfold createOrUpdateWebhookDeployment
    rw [hbuilds.deployment]
    exact hasks rfl

theorem stages_map_fst (env env' : Environment) (cr : IntegrityShieldCR) :
    (stages env cr).map Prod.fst = (stages env' cr).map Prod.fst := by
  unfold stages
  simp only [List.map_append, List.map_cons, List.map_nil]

/-- The keys of the secrets that the keys are in. -/
def keySecrets (cr : IntegrityShieldCR) : List Key :=
  cr.spec.keyConfig.map fun keyConf => ⟨.secret, cr.namespace, keyConf.secretName⟩

/-- The keys that a pass relies on: the resource, the secrets, and what the stages manage. -/
def Ours (env : Environment) («namespace» name : String) (cr : IntegrityShieldCR) (k : Key) :
    Prop :=
  k ∈ Key.resource «namespace» name :: keySecrets cr ∨ k ∈ managedKeys env cr

/-- The resource is the stored one, and the secrets that the keys are in are there. -/
def Given («namespace» name : String) (stored cr : IntegrityShieldCR) (wanted : Wanted)
    (store : Store Key.Content) : Prop :=
  ∀ k ∈ Key.resource «namespace» name :: keySecrets cr, Held (Fit stored wanted) k store

/-- A pass ends with the webhook if it has seen the deployment available, and without it
otherwise; it is done if it has found the webhook as well. -/
def FollowsServer (cr : IntegrityShieldCR) (before : Session Key.Content)
    (after : Outcome × Session Key.Content) : Prop :=
  ∃ new answer, after.2.log = before.log ++ new ∧
    (⟨.get cr.deploymentKey, answer⟩ : Event Key.Content) ∈ new ∧
    if isAvailable answer then
      after.2.store cr.webhookKey ≠ none ∧
        after.1 = if before.store cr.webhookKey = none then .requeue else .proceed
    else after.2.store cr.webhookKey = none ∧ after.1 = .requeue

section Pass

variable {«namespace» name : String}

theorem not_ours_of_kind {k : Key} (hresource : (k.kind == .integrityShield) = false)
    (hmanaged : k.kind.isManaged = false) : ¬Ours env «namespace» name cr k := by
  rintro (hk | hk)
  · rcases List.mem_cons.1 hk with rfl | hk
    · cases hresource
    · obtain ⟨keyConf, _, rfl⟩ := List.mem_map.1 hk
      cases hmanaged
  · rw [isManaged_of_mem_managedKeys k hk] at hmanaged
    cases hmanaged

theorem ours_stages : ∀ ks ∈ (stages env cr).map Prod.fst, ∀ k ∈ ks,
    Ours env «namespace» name cr k := by
  intro ks hks k hk
  obtain ⟨stage, hstage, rfl⟩ := List.mem_map.1 hks
  exact Or.inr (List.mem_flatMap.2 ⟨stage, hstage, hk⟩)

/-- The last stage does not touch what the others rely on. -/
theorem gentle_webhookStage {fit : ∀ k : Key, k.Content → Prop} :
    (webhookStage env cr).Requests (Gentle srv fit (Ours env «namespace» name cr)) := by
  have hwebhook : ¬Ours env «namespace» name cr cr.webhookKey := not_ours_of_kind rfl rfl
  have hevent : ¬Ours env «namespace» name cr (webhookEventKey cr) := not_ours_of_kind rfl rfl
  exact requests_webhookStage (fun _ => trivial) (fun _ h => absurd h hwebhook)
    (fun _ h => absurd h hevent) (fun _ h => absurd h hevent) hwebhook

variable (hbuilds : Builds env cr wanted) (hkeeps : Keeps srv cr wanted)
include hbuilds hkeeps

theorem settles_stages : ∀ stage ∈ stages env cr,
    Settles srv (Fit stored wanted) (Ours env «namespace» name cr)
      (.resource «namespace» name :: keySecrets cr) stage.1 stage.2 := by
  intro stage hstage
  refine (stageShape stage hstage).settles hbuilds hkeeps
    (fun k hk => Or.inr (List.mem_flatMap.2 ⟨stage, hstage, hk⟩)) (fun k hk => Or.inl hk) ?_
    (stages_ne_fault hbuilds stage hstage)
  exact fun keyConf hkeyConf => List.mem_cons_of_mem _ (List.mem_map_of_mem hkeyConf)

theorem gentle_reconcileLive : (reconcileLive env cr).Requests
    (Gentle srv (Fit stored wanted) (Ours env «namespace» name cr)) := by
  refine requests_inOrder (List.forall_mem_append.2 ⟨fun p hp => ?_, ?_⟩)
  · obtain ⟨stage, hstage, rfl⟩ := List.mem_map.1 hp
    exact (settles_stages hbuilds hkeeps stage hstage).gentle
  · exact List.forall_mem_singleton.2 gentle_webhookStage

variable (heffective : env.effective stored = cr) (hlive : cr.deletionTimestamp = false)
  (hturns : s.Always (Cooperative (Fit stored wanted) (Ours env «namespace» name cr)))
  (hgiven : Given «namespace» name stored cr wanted s.store)
include heffective hlive hturns hgiven

variable (srv) in
omit hbuilds hkeeps in
/-- A pass reads the resource, and then goes through the stages. -/
theorem run_reconcile_held :
    (reconcile env «namespace» name).run srv s =
        (reconcileLive env cr).run srv (s.ask srv (.get (.resource «namespace» name))).2 ∧
      (s.ask srv (.get (.resource «namespace» name))).2.store = s.wait.store := by
  obtain ⟨found, hfound, hfit⟩ := (hturns 0).held (Or.inl (List.mem_cons_self ..))
    (hgiven _ (List.mem_cons_self ..))
  obtain rfl : found = stored := hfit
  obtain ⟨hget, hstore⟩ := get_some (hturns 0).through srv hfound
  refine ⟨?_, hstore⟩
  rw [run_reconcile_ok hget, heffective, if_neg (by rw [hlive]; exact Bool.false_ne_true)]

/-- What a pass relies on is there after it. -/
theorem held_reconcile {k : Key} (hk : Ours env «namespace» name cr k)
    (h : Held (Fit stored wanted) k s.store) :
    Held (Fit stored wanted) k ((reconcile env «namespace» name).run srv s).2.store := by
  obtain ⟨hrun, hstore⟩ := run_reconcile_held srv heffective hlive hturns hgiven
  rw [hrun]
  refine held_run (gentle_reconcileLive hbuilds hkeeps) hk (hturns.ask srv _) ?_
  rw [hstore]
  exact (hturns 0).held hk h

/-- A pass settles one more stage. -/
theorem settled_reconcile {m : ℕ}
    (h : Settled (Fit stored wanted) (((stages env cr).map Prod.fst).take m) s.store) :
    Settled (Fit stored wanted) (((stages env cr).map Prod.fst).take (m + 1))
      ((reconcile env «namespace» name).run srv s).2.store := by
  obtain ⟨hrun, hstore⟩ := run_reconcile_held srv heffective hlive hturns hgiven
  have hours : ∀ n, ∀ ks ∈ ((stages env cr).map Prod.fst).take n, ∀ k ∈ ks,
      Ours env «namespace» name cr k := fun n ks hks => ours_stages ks (List.mem_of_mem_take hks)
  have hsettled := settled_take_succ (fun k hk => Or.inl hk)
    (settles_stages hbuilds hkeeps) (hturns.ask srv (.get (.resource «namespace» name)))
    (fun k hk => hstore ▸ (hturns 0).held (Or.inl hk) (hgiven k hk))
    (fun ks hks k hk => hstore ▸ (hturns 0).held (hours m ks hks k hk) (h ks hks k hk))
  rw [hrun, run_reconcileLive]
  split
  · exact settled_run gentle_webhookStage (hours (m + 1))
      (Client.always_run _ (hturns.ask srv _)) hsettled
  · exact hsettled

/-- Once all the stages are settled, a pass comes to the webhook. -/
theorem run_reconcile_settled
    (h : Settled (Fit stored wanted) ((stages env cr).map Prod.fst) s.store) :
    (reconcile env «namespace» name).run srv s = (webhookStage env cr).run srv
      ((pass (stages env cr)).run srv (s.ask srv (.get (.resource «namespace» name))).2).2 := by
  obtain ⟨hrun, hstore⟩ := run_reconcile_held srv heffective hlive hturns hgiven
  have hproceed : ((pass (stages env cr)).run srv
      (s.ask srv (.get (.resource «namespace» name))).2).1 = .proceed :=
    pass_proceed (fun k hk => Or.inl hk) (settles_stages hbuilds hkeeps)
      (hturns.ask srv _) (fun k hk => hstore ▸ (hturns 0).held (Or.inl hk) (hgiven k hk))
      (fun ks hks k hk => hstore ▸ (hturns 0).held (ours_stages ks hks k hk) (h ks hks k hk))
  rw [hrun, run_reconcileLive, if_pos hproceed]

/-- Once all the stages are settled, the webhook follows the server. -/
theorem followsServer_reconcile
    (halone : s.Always fun t => ∀ store, t.others store cr.webhookKey = store cr.webhookKey)
    (h : Settled (Fit stored wanted) ((stages env cr).map Prod.fst) s.store) :
    FollowsServer cr s ((reconcile env «namespace» name).run srv s) := by
  rw [run_reconcile_settled hbuilds hkeeps heffective hlive hturns hgiven h]
  have hwebhook := webhook_pass_stages env srv halone (.resource «namespace» name)
  have hthrough : s.Always fun t => t.fails = false := fun n => (hturns n).through
  obtain ⟨old, hold, _⟩ := Client.log_of_requests requests_pass_stages srv
    (s.ask srv (.get (.resource «namespace» name))).2
  rw [Session.ask_log, List.append_assoc] at hold
  obtain ⟨new, hnew⟩ := webhookStage_log env cr srv
    ((pass (stages env cr)).run srv (s.ask srv (.get (.resource «namespace» name))).2).2
  rw [hold, List.append_assoc] at hnew
  obtain ⟨webhook, hbuildWebhook⟩ := hbuilds.exists_webhook
  refine ⟨_, _, hnew, List.mem_append_right _ (List.mem_cons_self ..), ?_⟩
  rw [← hwebhook]
  exact run_webhookStage srv hbuildWebhook (Client.always_run _ (hthrough.ask srv _))
    (Client.always_run _ (halone.ask srv _))

end Pass

theorem managedKeys_congr (env env' : Environment) (cr : IntegrityShieldCR) :
    managedKeys env cr = managedKeys env' cr := by
  rw [managedKeys, managedKeys, List.flatMap_def, List.flatMap_def, stages_map_fst env env' cr]

theorem shieldConfig_mem_managedKeys (env : Environment) (cr : IntegrityShieldCR) :
    (⟨.shieldConfig, cr.namespace, cr.getShieldConfigCRName⟩ : Key) ∈ managedKeys env cr := by
  have hstage : ([⟨.shieldConfig, cr.namespace, cr.getShieldConfigCRName⟩],
      createOrUpdateShieldConfigCR env cr) ∈ stages env cr := by simp [stages]
  exact List.mem_flatMap.2 ⟨_, hstage, List.mem_singleton_self _⟩

end

/-! A comparison by equality, and a resource with one key. -/

open Classical in
noncomputable abbrev Reflect.exact : Reflect where
  deepEqual a b := decide (a = b)
  eq_of_deepEqual h := of_decide_eq_true h

open Classical in
theorem Reflect.exact_self {τ : Type} (a : τ) : Reflect.exact.deepEqual a a = true :=
  decide_eq_true rfl

def keyedCR : IntegrityShieldCR where
  name := "shield"
  «namespace» := "shield-ns"
  spec := {
    keyConfig := [{ name := "keyring", secretName := "keyring-secret" }]
    logger := { esConfig := some {}, httpConfig := some {} }
    shieldConfig := some {}
    webhookConfigName := "shield-webhook" }

def keyedStore : Store Key.Content :=
  Function.update (Function.update (fun _ => none) keyedCR.key (some keyedCR))
    (⟨.secret, "shield-ns", "keyring-secret"⟩ : Key) (some {})

theorem given_keyedStore [Reflect] (wanted : Wanted) :
    Given "shield-ns" "shield" keyedCR keyedCR wanted keyedStore :=
  List.forall_mem_cons.2 ⟨⟨keyedCR, rfl, rfl⟩, List.forall_mem_singleton.2 ⟨{}, rfl, trivial⟩⟩

theorem equalDeployments_exact {expected found : Deployment}
    (h : expected.spec.template.spec.containers ≠ []) (hlabels : found.labels = expected.labels)
    (hspec : found.spec = expected.spec) :
    letI := Reflect.exact
    equalDeployments expected found = .ok true := by
  obtain ⟨container, rest, hcontainers⟩ := List.exists_cons_of_ne_nil h
  have hself : @equalContainers Reflect.exact container container = true := by
    simp only [equalContainers, Reflect.exact_self, Bool.and_self]
  simp only [equalDeployments, equalPods, hlabels, hspec, hcontainers, Reflect.exact_self,
    Bool.not_true, Bool.false_eq_true, ne_eq, not_true_eq_false, if_false,
    List.getElem?_cons_zero]
  exact congrArg Except.ok hself

theorem keeps_faithfulServer {env : Environment} {cr : IntegrityShieldCR} {wanted : Wanted}
    (hbuilds : Builds env cr wanted) : @Keeps Reflect.exact faithfulServer cr wanted := by
  have hcontainers := containers_ne_nil hbuilds.deployment
  exact @Keeps.mk Reflect.exact _ _ _ (fun _ => rfl) (equalDeployments_exact hcontainers rfl rfl)
    fun _ _ => equalDeployments_exact hcontainers rfl rfl

end Operator
end IntegrityShield
