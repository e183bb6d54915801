/-
# What the stages of a pass can do

Every stage before the webhook is of one of a few shapes (`stageShape`), and all that
is said about the stages is said about the shapes: which requests they make
(`requests_stages`), and what a stage has seen that lets the pass go on
(`StageShape.proceed`).
-/

import IntegrityShield.Operator.Reconcile

namespace IntegrityShield
namespace Operator

open ObjectStore Reconciler

/-- The kinds whose objects are written again when their specification differs. -/
def Kind.isOverwritten : Kind → Bool
  | .customResourceDefinition => true
  | .shieldConfig => true
  | .signerConfig => true
  | .resourceSigningProfile => true
  | _ => false

/-- The kinds whose objects are left alone once they are there. -/
def Kind.isLeftAlone : Kind → Bool
  | .secret => true
  | .serviceAccount => true
  | .clusterRole => true
  | .clusterRoleBinding => true
  | .role => true
  | .roleBinding => true
  | .podSecurityPolicy => true
  | .service => true
  | _ => false

/-- The kinds of the objects that the stages before the webhook are about. -/
def Kind.isManaged (kind : Kind) : Bool :=
  kind.isOverwritten || kind.isLeftAlone || kind == .deployment

section

variable {env : Environment} {cr : IntegrityShieldCR}

/-! ## Names -/

theorem buildShieldConfigForIShield_name {expected : Object .shieldConfig}
    (h : buildShieldConfigForIShield env cr = .ok expected) :
    expected.name = cr.getShieldConfigCRName := by
  obtain ⟨_, _, h⟩ := Go.bind_eq_ok.1 h
  obtain ⟨_, _, h⟩ := Go.bind_eq_ok.1 h
  obtain ⟨_, _, h⟩ := Go.bind_eq_ok.1 h
  obtain ⟨_, _, h⟩ := Go.bind_eq_ok.1 h
  exact congrArg Object.name (Except.ok.inj h).symm

theorem buildDeploymentForIShield_name {expected : Object .deployment}
    (h : buildDeploymentForIShield cr = .ok expected) : expected.name = cr.name := by
  obtain ⟨_, _, h⟩ := Go.bind_eq_ok.1 h
  obtain ⟨_, _, h⟩ := Go.bind_eq_ok.1 h
  exact congrArg Object.name (Except.ok.inj h).symm

theorem buildMutatingWebhookConfigurationForIShield_name
    {expected : Object .mutatingWebhookConfiguration}
    (h : buildMutatingWebhookConfigurationForIShield env cr = .ok expected) :
    expected.name = cr.getWebhookConfigName := by
  obtain ⟨_, _, h⟩ := Go.bind_eq_ok.1 h
  exact congrArg Object.name (Except.ok.inj h).symm

/-! ## Requests -/

/-- What stages about some keys may ask. -/
def StageRequest (ks : List Key) : Request Key.Content → Prop
  | .get _ => True
  | .create k _ => k ∈ ks
  | .update k _ => k ∈ ks ∧ (k.kind.isOverwritten = true ∨ k.kind = .deployment)
  | .delete _ => False

/-- A stage writes only what it is about. -/
theorem StageRequest.isGet_or_ne {ks : List Key} {r : Request Key.Content}
    (h : StageRequest ks r) {k : Key} (hk : k ∉ ks) : r.isGet = true ∨ r.key ≠ k := by
  cases r with
  | get k' => exact Or.inl rfl
  | create k' a => exact Or.inr fun heq => hk (heq ▸ h)
  | update k' a => exact Or.inr fun heq => hk (heq ▸ h.1)
  | delete k' => exact h.elim

theorem StageRequest.mono {ks ks' : List Key} (hks : ks ⊆ ks') {r : Request Key.Content}
    (h : StageRequest ks r) : StageRequest ks' r := by
  cases r with
  | get k => trivial
  | create k a => exact hks h
  | update k a => exact ⟨hks h.1, h.2⟩
  | delete k => exact h

theorem requests_isKeyRingReady {P : Request Key.Content → Prop} (hget : ∀ k, P (.get k))
    («namespace» : String) (keyConfig : List SecretKeyConfig) :
    (isKeyRingReady «namespace» keyConfig).Requests P := by
  induction keyConfig with
  | nil => exact Client.requests_pure _
  | cons keyConf rest ih =>
      refine Client.requests_bind (Client.requests_request (hget _)) fun found => ?_
      cases found with
      | ok a => exact ih
      | error e => exact Client.requests_pure _

theorem requests_keyRingStage {P : Request Key.Content → Prop} (hget : ∀ k, P (.get k)) :
    (keyRingStage cr).Requests P := by
  refine Client.requests_bind (requests_isKeyRingReady hget _ _) fun ready => ?_
  split <;> exact Client.requests_pure _

theorem requests_createIfMissing {P : Request Key.Content → Prop} {k : Key}
    {expected : k.Content} (hget : P (.get k)) (hcreate : P (.create k expected)) :
    (createIfMissing k expected).Requests P := by
  refine requests_ensure hget hcreate fun a new hrepair => ?_
  cases Except.ok.inj hrepair

theorem requests_createOrUpdateWebhookEvent {P : Request Key.Content → Prop}
    (hget : ∀ k, P (.get k)) (hcreate : ∀ a, P (.create (webhookEventKey cr) a))
    (hupdate : ∀ a, P (.update (webhookEventKey cr) a)) (webhookName : String) :
    (createOrUpdateWebhookEvent cr webhookName).Requests P := by
  refine Client.requests_bind (Client.requests_request (hget _)) fun found => ?_
  cases found with
  | ok a =>
      exact Client.requests_bind (Client.requests_request (hupdate _))
        fun _ => Client.requests_pure _
  | error e =>
      cases e with
      | notFound =>
          exact Client.requests_bind (Client.requests_request (hcreate _))
            fun _ => Client.requests_pure _
      | alreadyExists => exact Client.requests_pure _
      | other => exact Client.requests_pure _

theorem requests_createOrUpdateWebhook {P : Request Key.Content → Prop} (hget : ∀ k, P (.get k))
    (hwebhook : ∀ a, P (.create (.webhook cr.getWebhookConfigName) a))
    (hcreate : ∀ a, P (.create (webhookEventKey cr) a))
    (hupdate : ∀ a, P (.update (webhookEventKey cr) a)) :
    (createOrUpdateWebhook env cr).Requests P := by
  unfold createOrUpdateWebhook
  cases hbuild : buildMutatingWebhookConfigurationForIShield env cr with
  | error f => exact Client.requests_pure _
  | ok expected =>
      rw [← buildMutatingWebhookConfigurationForIShield_name hbuild] at hwebhook
      refine Client.requests_bind (Client.requests_request (hget _)) fun found => ?_
      rcases found with (_ | _ | _) | a
      · refine Client.requests_bind (Client.requests_request (hget _)) fun secret => ?_
        refine Client.requests_bind (Client.requests_request (hwebhook _)) fun answer => ?_
        cases answer with
        | ok u =>
            exact Client.requests_bind
              (requests_createOrUpdateWebhookEvent hget hcreate hupdate _)
              fun _ => Client.requests_pure _
        | error e => exact Client.requests_pure _
      · exact Client.requests_pure _
      · exact Client.requests_pure _
      · exact Client.requests_pure _

theorem requests_deleteWebhook {P : Request Key.Content → Prop} (hget : ∀ k, P (.get k))
    (hdelete : P (.delete (.webhook cr.getWebhookConfigName))) :
    (deleteWebhook env cr).Requests P := by
  unfold deleteWebhook
  cases hbuild : buildMutatingWebhookConfigurationForIShield env cr with
  | error f => exact Client.requests_pure _
  | ok expected =>
      have hname := buildMutatingWebhookConfigurationForIShield_name hbuild
      exact requests_discard (hget _) (hname ▸ hdelete)

theorem requests_isDeploymentAvailable {P : Request Key.Content → Prop} (hget : ∀ k, P (.get k)) :
    (isDeploymentAvailable cr).Requests P := by
  refine Client.requests_bind (Client.requests_request (hget _)) fun found => ?_
  cases found <;> exact Client.requests_pure _

theorem requests_webhookStage {P : Request Key.Content → Prop} (hget : ∀ k, P (.get k))
    (hwebhook : ∀ a, P (.create (.webhook cr.getWebhookConfigName) a))
    (hcreate : ∀ a, P (.create (webhookEventKey cr) a))
    (hupdate : ∀ a, P (.update (webhookEventKey cr) a))
    (hdelete : P (.delete (.webhook cr.getWebhookConfigName))) :
    (webhookStage env cr).Requests P := by
  refine Client.requests_bind (requests_isDeploymentAvailable hget) fun available => ?_
  split
  · exact requests_createOrUpdateWebhook hget hwebhook hcreate hupdate
  · exact requests_deleteWebhook hget hdelete

end

/-! ## Shapes -/

section

variable [Reflect] (env : Environment) (cr : IntegrityShieldCR)

/-- The shapes of the stages. -/
inductive StageShape : List Key × Step → Prop where
  | keyRing : StageShape ([], keyRingStage cr)
  | skipped : StageShape ([], return .proceed)
  | faulty (ks : List Key) (f : Fault) (hks : ∀ k ∈ ks, k.kind.isManaged = true) :
      StageShape (ks, return .fault f)
  | missing (k : Key) (expected : k.Content) (hk : k.kind.isLeftAlone = true) :
      StageShape ([k], createIfMissing k expected)
  | overwrite (k : Key) (expected : k.Content) (same : k.Content → Bool)
      (hk : k.kind.isOverwritten = true) (hne : (k.kind == .shieldConfig) = false) :
      StageShape ([k], createOrOverwrite k expected same)
  | shieldConfig (expected : Object .shieldConfig)
      (hbuild : buildShieldConfigForIShield env cr = .ok expected) :
      StageShape ([⟨.shieldConfig, cr.namespace, expected.name⟩],
        createOrOverwrite ⟨.shieldConfig, cr.namespace, expected.name⟩ expected.content
          (Reflect.deepEqual expected.content))
  | deployment (expected : Object .deployment)
      (hbuild : buildDeploymentForIShield cr = .ok expected) :
      StageShape ([⟨.deployment, cr.namespace, expected.name⟩],
        createOrUpdateDeployment cr expected)

/-- The keys of the objects that the stages are about. -/
def managedKeys : List Key := (stages env cr).flatMap Prod.fst

variable {env cr}

theorem stageShape_profile (prof : Option ProfileConfig) :
    StageShape env cr (prof.toList.map fun prof =>
        ⟨.resourceSigningProfile, cr.namespace, prof.name⟩,
      createOrUpdateResourceSigningProfileCR cr prof) := by
  rcases prof with _ | ⟨_ | spec, name⟩
  · exact .faulty _ _ (List.forall_mem_nil _)
  · exact .faulty _ _ (List.forall_mem_singleton.2 rfl)
  · exact .overwrite _ _ _ rfl rfl

theorem stageShape_shieldConfig :
    StageShape env cr ([⟨.shieldConfig, cr.namespace, cr.getShieldConfigCRName⟩],
      createOrUpdateShieldConfigCR env cr) := by
  unfold createOrUpdateShieldConfigCR
  cases hbuild : buildShieldConfigForIShield env cr with
  | error f => exact .faulty _ f (List.forall_mem_singleton.2 rfl)
  | ok expected =>
      rw [← buildShieldConfigForIShield_name hbuild]
      exact .shieldConfig expected hbuild

theorem stageShape_deployment :
    StageShape env cr ([⟨.deployment, cr.namespace, cr.getIShieldServerDeploymentName⟩],
      createOrUpdateWebhookDeployment cr) := by
  unfold createOrUpdateWebhookDeployment
  cases hbuild : buildDeploymentForIShield cr with
  | error f => exact .faulty _ f (List.forall_mem_singleton.2 rfl)
  | ok expected =>
      have hname : cr.getIShieldServerDeploymentName = expected.name :=
        (buildDeploymentForIShield_name hbuild).symm
      rw [hname]
      exact .deployment expected hbuild

/-- Every stage is of one of the shapes. -/
theorem stageShape : ∀ stage ∈ stages env cr, StageShape env cr stage := by
  unfold stages
  simp only [List.forall_mem_append, List.forall_mem_cons, List.forall_mem_map, List.not_mem_nil,
    false_implies, implies_true, and_true]
  refine ⟨⟨⟨⟨⟨.keyRing, .overwrite _ _ _ rfl rfl, .overwrite _ _ _ rfl rfl,
    .overwrite _ _ _ rfl rfl, .overwrite _ _ _ rfl rfl, ?_, stageShape_shieldConfig,
    .overwrite _ _ _ rfl rfl⟩,
    fun prof _ => stageShape_profile prof⟩,
    .missing _ _ rfl, .missing _ _ rfl, .missing _ _ rfl, .missing _ _ rfl,
    .missing _ _ rfl, .missing _ _ rfl⟩, ?_⟩,
    .missing _ _ rfl, stageShape_deployment, .missing _ _ rfl⟩
  · rcases cr.helmEnabled with f | (_ | _)
    · exact .faulty _ f (List.forall_mem_nil _)
    · exact .skipped
    · exact .overwrite _ _ _ rfl rfl
  · split
    · exact fun _ h => absurd h List.not_mem_nil
    · simp only [List.forall_mem_cons, List.not_mem_nil, false_implies, implies_true, and_true]
      exact ⟨.missing _ _ rfl, .missing _ _ rfl, .missing _ _ rfl, .missing _ _ rfl⟩

theorem StageShape.requests {stage : List Key × Step} (h : StageShape env cr stage) :
    stage.2.Requests (StageRequest stage.1) := by
  cases h with
  | keyRing => exact requests_keyRingStage fun _ => trivial
  | skipped => exact Client.requests_pure _
  | faulty ks f hks => exact Client.requests_pure _
  | missing k expected hk =>
      exact requests_createIfMissing trivial (List.mem_singleton_self k)
  | overwrite k expected same hk hne =>
      exact requests_ensure trivial (List.mem_singleton_self k)
        fun _ _ _ => ⟨List.mem_singleton_self k, Or.inl hk⟩
  | shieldConfig expected hbuild =>
      exact requests_ensure trivial (List.mem_singleton_self _)
        fun _ _ _ => ⟨List.mem_singleton_self _, Or.inl rfl⟩
  | deployment expected hbuild =>
      exact requests_ensure trivial (List.mem_singleton_self _)
        fun _ _ _ => ⟨List.mem_singleton_self _, Or.inr rfl⟩

theorem StageShape.isManaged {stage : List Key × Step} (h : StageShape env cr stage) :
    ∀ k ∈ stage.1, k.kind.isManaged = true := by
  cases h with
  | keyRing => exact List.forall_mem_nil _
  | skipped => exact List.forall_mem_nil _
  | faulty ks f hks => exact hks
  | missing k expected hk =>
      refine List.forall_mem_singleton.2 ?_
      rw [Kind.isManaged, hk, Bool.or_true, Bool.true_or]
  | overwrite k expected same hk hne =>
      refine List.forall_mem_singleton.2 ?_
      rw [Kind.isManaged, hk, Bool.true_or, Bool.true_or]
  | shieldConfig expected hbuild => exact List.forall_mem_singleton.2 rfl
  | deployment expected hbuild => exact List.forall_mem_singleton.2 rfl

theorem isManaged_of_mem_managedKeys : ∀ k ∈ managedKeys env cr, k.kind.isManaged = true := by
  intro k hk
  obtain ⟨stage, hstage, hk⟩ := List.mem_flatMap.1 hk
  exact (stageShape stage hstage).isManaged k hk

/-- The stages ask for anything, and write only what they are about. -/
theorem requests_stages :
    ∀ p ∈ (stages env cr).map Prod.snd, p.Requests (StageRequest (managedKeys env cr)) := by
  intro p hp
  obtain ⟨stage, hstage, rfl⟩ := List.mem_map.1 hp
  exact (stageShape stage hstage).requests.mono fun r hr =>
    hr.mono fun k hk => List.mem_flatMap.2 ⟨stage, hstage, hk⟩

theorem requests_pass_stages :
    (pass (stages env cr)).Requests (StageRequest (managedKeys env cr)) :=
  requests_inOrder requests_stages

/-- What a pass may ask, for a resource that is not under deletion. -/
def LiveRequest (env : Environment) (cr : IntegrityShieldCR) : Request Key.Content → Prop
  | .get _ => True
  | .create k _ => k ∈ managedKeys env cr ∨ k = .webhook cr.getWebhookConfigName ∨
      k = webhookEventKey cr
  | .update k _ => k ∈ managedKeys env cr ∧ (k.kind.isOverwritten = true ∨ k.kind = .deployment) ∨
      k = webhookEventKey cr
  | .delete k => k = .webhook cr.getWebhookConfigName

theorem StageRequest.live {r : Request Key.Content} (h : StageRequest (managedKeys env cr) r) :
    LiveRequest env cr r := by
  cases r with
  | get k => trivial
  | create k a => exact Or.inl h
  | update k a => exact Or.inl h
  | delete k => exact h.elim

theorem requests_reconcileLive : (reconcileLive env cr).Requests (LiveRequest env cr) := by
  refine requests_inOrder (List.forall_mem_append.2 ⟨fun p hp => ?_, ?_⟩)
  · exact (requests_stages p hp).mono fun _ hr => hr.live
  · exact List.forall_mem_singleton.2 (requests_webhookStage (fun _ => trivial)
      (fun _ => Or.inr (Or.inl rfl)) (fun _ => Or.inr (Or.inr rfl)) (fun _ => Or.inr rfl) rfl)

/-! ## What a pass that goes on has seen -/

/-- Requests that create and delete nothing, and write only what is written again in passing. -/
def Quiet : Request Key.Content → Prop
  | .get _ => True
  | .create _ _ => False
  | .update k _ => k.kind.isOverwritten = true
  | .delete _ => False

omit [Reflect] in
theorem isKeyRingReady_found {srv : Server Key.Content} {s : Session Key.Content}
    {«namespace» : String} {keyConfig : List SecretKeyConfig}
    (h : ((isKeyRingReady «namespace» keyConfig).run srv s).1 = true) :
    ∀ keyConf ∈ keyConfig, Found (⟨.secret, «namespace», keyConf.secretName⟩ : Key)
      (fun _ => True) ((isKeyRingReady «namespace» keyConfig).run srv s).2.log := by
  induction keyConfig generalizing s with
  | nil => exact List.forall_mem_nil _
  | cons keyConf rest ih =>
      rw [isKeyRingReady, Client.run_bind, Client.run_get] at h ⊢
      have hmem := Client.mem_log_ask srv (.get ⟨.secret, «namespace», keyConf.secretName⟩) s
      cases hget : (s.ask srv (.get ⟨.secret, «namespace», keyConf.secretName⟩)).1 with
      | ok a =>
          simp only [hget] at h hmem ⊢
          exact List.forall_mem_cons.2 ⟨⟨a, Client.subset_log _ _ _ hmem, trivial⟩, ih h⟩
      | error e =>
          simp only [hget] at h
          cases h

omit [Reflect] in
theorem keyRingStage_proceed {srv : Server Key.Content} {s : Session Key.Content}
    (h : ((keyRingStage cr).run srv s).1 = .proceed) :
    ∀ keyConf ∈ cr.spec.keyConfig, Found (⟨.secret, cr.namespace, keyConf.secretName⟩ : Key)
      (fun _ => True) ((keyRingStage cr).run srv s).2.log := by
  rw [keyRingStage, Client.run_bind] at h ⊢
  cases hready : ((isKeyRingReady cr.namespace cr.spec.keyConfig).run srv s).1 with
  | true =>
      rw [if_pos rfl]
      exact isKeyRingReady_found hready
  | false =>
      rw [hready] at h
      cases h

/-- What a step shows that goes on: its object, with a property, by quiet requests. -/
def Shows (k : Key) (p : k.Content → Prop) (old log : List (Event Key.Content)) : Prop :=
  ∃ new, log = old ++ new ∧ Found k p new ∧ ∀ e ∈ new, Quiet e.1

section Proceed

variable {srv : Server Key.Content} {s : Session Key.Content} {k : Key} {expected : k.Content}

omit [Reflect] in
theorem createIfMissing_proceed (h : ((createIfMissing k expected).run srv s).1 = .proceed) :
    Shows k (fun _ => True) s.log ((createIfMissing k expected).run srv s).2.log := by
  unfold createIfMissing at h ⊢
  obtain ⟨new, hlog, hfound, hnew⟩ := ensure_proceed h
  refine ⟨new, hlog, hfound.mono (List.Subset.refl _) fun _ _ => trivial, fun e he => ?_⟩
  obtain hget | ⟨_, a, b, hrepair, _⟩ := hnew e he
  · rw [hget]
    trivial
  · cases Except.ok.inj hrepair

omit [Reflect] in
theorem createOrOverwrite_proceed {same : k.Content → Bool} (hk : k.kind.isOverwritten = true)
    (h : ((createOrOverwrite k expected same).run srv s).1 = .proceed) :
    Shows k (fun _ => True) s.log ((createOrOverwrite k expected same).run srv s).2.log := by
  unfold createOrOverwrite at h ⊢
  obtain ⟨new, hlog, hfound, hnew⟩ := ensure_proceed h
  refine ⟨new, hlog, hfound.mono (List.Subset.refl _) fun _ _ => trivial, fun e he => ?_⟩
  obtain hget | ⟨_, a, b, _, hupdate⟩ := hnew e he
  · rw [hget]
    trivial
  · rw [hupdate]
    exact hk

theorem createOrUpdateDeployment_proceed {expected : Object .deployment}
    (h : ((createOrUpdateDeployment cr expected).run srv s).1 = .proceed) :
    Shows ⟨.deployment, cr.namespace, expected.name⟩
      (fun found => equalDeployments expected.content found = .ok true) s.log
      ((createOrUpdateDeployment cr expected).run srv s).2.log := by
  unfold createOrUpdateDeployment at h ⊢
  obtain ⟨new, hlog, hfound, hnew⟩ := ensure_proceed h
  refine ⟨new, hlog, hfound.mono (List.Subset.refl _) fun found hrepair => ?_, fun e he => ?_⟩
  · obtain ⟨equal, hequal, hrepair⟩ := Go.bind_eq_ok.1 (hrepair.resolve_right (by decide))
    cases equal with
    | true => exact hequal
    | false => cases Except.ok.inj hrepair
  · obtain hget | ⟨hagain, _⟩ := hnew e he
    · rw [hget]
      trivial
    · cases hagain

/-- A stage that lets the pass go on has found its objects, and has made only quiet
requests. -/
theorem StageShape.proceed {stage : List Key × Step} (h : StageShape env cr stage)
    (hproceed : (stage.2.run srv s).1 = .proceed) :
    ∃ new, (stage.2.run srv s).2.log = s.log ++ new ∧ (∀ e ∈ new, Quiet e.1) ∧
      ∀ k ∈ stage.1, Found k (fun _ => True) new := by
  cases h with
  | keyRing =>
      have hrequests : (keyRingStage cr).Requests Quiet := requests_keyRingStage fun _ => trivial
      obtain ⟨new, hlog, hnew⟩ := Client.log_of_requests hrequests srv s
      exact ⟨new, hlog, hnew, List.forall_mem_nil _⟩
  | skipped =>
      exact ⟨[], (List.append_nil _).symm, List.forall_mem_nil _, List.forall_mem_nil _⟩
  | faulty ks f hks => cases hproceed
  | missing k expected hk =>
      obtain ⟨new, hlog, hfound, hnew⟩ := createIfMissing_proceed hproceed
      exact ⟨new, hlog, hnew, List.forall_mem_singleton.2 hfound⟩
  | overwrite k expected same hk hne =>
      obtain ⟨new, hlog, hfound, hnew⟩ := createOrOverwrite_proceed hk hproceed
      exact ⟨new, hlog, hnew, List.forall_mem_singleton.2 hfound⟩
  | shieldConfig expected hbuild =>
      obtain ⟨new, hlog, hfound, hnew⟩ := createOrOverwrite_proceed rfl hproceed
      exact ⟨new, hlog, hnew, List.forall_mem_singleton.2 hfound⟩
  | deployment expected hbuild =>
      obtain ⟨new, hlog, hfound, hnew⟩ := createOrUpdateDeployment_proceed hproceed
      exact ⟨new, hlog, hnew, List.forall_mem_singleton.2
        (hfound.mono (List.Subset.refl _) fun _ _ => trivial)⟩

end Proceed

end

end Operator
end IntegrityShield
