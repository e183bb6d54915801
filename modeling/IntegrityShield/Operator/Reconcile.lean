/-
# The reconciler of the operator

`controllers/integrityshield_controller.go` and `controllers/integrityshield.go`: one
pass of `Reconcile` over the objects that an `IntegrityShield` resource stands for,
as a client of the cluster.

A pass goes through its stages in order.  A stage that creates its object ends the
pass, to be called again; one that finds it lets the pass go on, and if the
specification differs it is written again first.  Only for a deployment does an
update end the pass.  The webhook comes last, when the server is available; when it
is not, the webhook is removed.

An error is an error here, whatever it says, and what is only logged is left out.
-/

import IntegrityShield.Base.Reconciler
import IntegrityShield.Operator.Resources

namespace IntegrityShield
namespace Operator

open ObjectStore Reconciler

/-- A step of the operator. -/
abbrev Step := Client Key.Content Outcome

/-- Build an object and go on with it; a fault of the builder is one of the step. -/
def withBuilt {τ : Type} (built : Go τ) (next : τ → Step) : Step :=
  match built with
  | .ok a => next a
  | .error f => return .fault f

/-- The `createOrUpdate` functions that leave an object alone once it is there. -/
def createIfMissing (k : Key) (expected : k.Content) : Step :=
  ensure k expected (fun _ => .ok none) .proceed

/-- The `createOrUpdate` functions that write an object again unless it is the same as
expected, and then go on. -/
def createOrOverwrite (k : Key) (expected : k.Content) (same : k.Content → Bool) : Step :=
  ensure k expected (fun found => .ok (if same found then none else some expected)) .proceed

section CreateOrUpdate

variable [Reflect] (env : Environment) (cr : IntegrityShieldCR)

/-! ## Custom resource definitions -/

/-- The key of a custom resource definition. -/
abbrev Key.crd (name : String) : Key := { kind := .customResourceDefinition, name }

/-- `createOrUpdateCRD`. -/
def createOrUpdateCRD (expected : Object .customResourceDefinition) : Step :=
  createOrOverwrite (.crd expected.name) expected.content (Reflect.deepEqual expected.content)

/-- `deleteCRD`. -/
def deleteCRD (expected : Object .customResourceDefinition) : Step := discard (.crd expected.name)

/-! ## Custom resources -/

/-- `createOrUpdateShieldConfigCR`. -/
def createOrUpdateShieldConfigCR : Step :=
  withBuilt (buildShieldConfigForIShield env cr) fun expected =>
    createOrOverwrite ⟨.shieldConfig, cr.namespace, expected.name⟩ expected.content
      (Reflect.deepEqual expected.content)

/-- `createOrUpdateSignerConfigCR`. -/
def createOrUpdateSignerConfigCR : Step :=
  let expected := buildSignerConfigForIShield cr
  createOrOverwrite ⟨.signerConfig, cr.namespace, expected.name⟩ expected.content
    (Reflect.deepEqual expected.content)

/-- `createOrUpdateResourceSigningProfileCR`: the specifications are compared, and the whole
object is written. -/
def createOrUpdateResourceSigningProfileCR (prof : Option ProfileConfig) : Step :=
  withBuilt (buildResourceSigningProfileForIShield prof) fun expected =>
    createOrOverwrite ⟨.resourceSigningProfile, cr.namespace, expected.name⟩
      expected.content fun found => Reflect.deepEqual expected.content.1 found.1

/-! ## Accounts, roles, secret and service -/

/-- `createOrUpdateServiceAccount`. -/
def createOrUpdateServiceAccount : Step :=
  let expected := buildServiceAccountForIShield cr
  createIfMissing ⟨.serviceAccount, cr.namespace, expected.name⟩ expected.content

/-- `createOrUpdateClusterRole`. -/
def createOrUpdateClusterRole (expected : Object .clusterRole) : Step :=
  createIfMissing { kind := .clusterRole, name := expected.name } expected.content

/-- `deleteClusterRole`. -/
def deleteClusterRole (expected : Object .clusterRole) : Step :=
  discard { kind := .clusterRole, name := expected.name }

/-- `createOrUpdateClusterRoleBinding`. -/
def createOrUpdateClusterRoleBinding (expected : Object .clusterRoleBinding) : Step :=
  createIfMissing { kind := .clusterRoleBinding, name := expected.name } expected.content

/-- `deleteClusterRoleBinding`. -/
def deleteClusterRoleBinding (expected : Object .clusterRoleBinding) : Step :=
  discard { kind := .clusterRoleBinding, name := expected.name }

/-- `createOrUpdateRole`. -/
def createOrUpdateRole (expected : Object .role) : Step :=
  createIfMissing ⟨.role, cr.namespace, expected.name⟩ expected.content

/-- `createOrUpdateRoleBinding`. -/
def createOrUpdateRoleBinding (expected : Object .roleBinding) : Step :=
  createIfMissing ⟨.roleBinding, cr.namespace, expected.name⟩ expected.content

/-- `createOrUpdatePodSecurityPolicy`. -/
def createOrUpdatePodSecurityPolicy : Step :=
  let expected := buildPodSecurityPolicy cr
  createIfMissing { kind := .podSecurityPolicy, name := expected.name } expected.content

/-- `deletePodSecurityPolicy`. -/
def deletePodSecurityPolicy : Step :=
  discard { kind := .podSecurityPolicy, name := (buildPodSecurityPolicy cr).name }

/-- `createOrUpdateTlsSecret`, through `createOrUpdateCertSecret`. -/
def createOrUpdateTlsSecret : Step :=
  let expected := buildTlsSecretForIShield env cr
  createIfMissing ⟨.secret, cr.namespace, expected.name⟩ expected.content

/-- `createOrUpdateWebhookService`, through `createOrUpdateService`. -/
def createOrUpdateWebhookService : Step :=
  let expected := buildServiceForIShield cr
  createIfMissing ⟨.service, cr.namespace, expected.name⟩ expected.content

/-- The loop of `isKeyRingReady` over the secrets of the keys; the first one that cannot be
read ends it. -/
def isKeyRingReady («namespace» : String) : List SecretKeyConfig → Client Key.Content Bool
  | [] => return true
  | keyConf :: rest => do
      match ← Client.get (⟨.secret, «namespace», keyConf.secretName⟩ : Key) with
      | .ok _ => isKeyRingReady «namespace» rest
      | .error _ => return false

/-! ## Deployment -/

/-- What an update makes of a deployment: it takes the labels and the specification. -/
def updatedDeployment (expected found : Deployment) : Deployment :=
  { found with labels := expected.labels, spec := expected.spec }

/-- `createOrUpdateDeployment`: the pass ends with an update. -/
def createOrUpdateDeployment (expected : Object .deployment) : Step :=
  ensure ⟨.deployment, cr.namespace, expected.name⟩ expected.content
    (fun found => do
      if ← equalDeployments expected.content found then return none
      else return some (updatedDeployment expected.content found))
    .requeue

/-- `createOrUpdateWebhookDeployment`. -/
def createOrUpdateWebhookDeployment : Step :=
  withBuilt (buildDeploymentForIShield cr) (createOrUpdateDeployment cr)

/-- `isDeploymentAvailable`: a deployment that cannot be read is not available. -/
def isDeploymentAvailable : Client Key.Content Bool := do
  match ← Client.get (⟨.deployment, cr.namespace, cr.name⟩ : Key) with
  | .ok found => return decide (0 < found.availableReplicas)
  | .error _ => return false

/-! ## Webhook -/

/-- The key of the webhook. -/
abbrev Key.webhook (name : String) : Key := { kind := .mutatingWebhookConfiguration, name }

/-- The key of the event that tells of a new webhook. -/
def webhookEventKey : Key := ⟨.event, cr.namespace, "ishield-webhook-reconciled"⟩

/-- `createOrUpdateWebhookEvent`; its caller does not look at the error. -/
def createOrUpdateWebhookEvent (webhookName : String) : Client Key.Content Unit := do
  let evtName := "ishield-webhook-reconciled"
  let msg := "[IntegrityShieldEvent] IntegrityShield reconciled MutatingWebhookConfiguration \"" ++
    webhookName ++ "\""
  let expected : EventContent := {
    annotations := GoMap.writes ∅ [("integrityshield.io/eventType", "reconcile-report")]
    involvedObjectKind := cr.kind
    involvedObjectName := cr.name
    message := msg
    reason := "webhook-reconciled"
    reportingController := "IntegrityShield"
    reportingInstance := evtName
    count := 1 }
  match ← Client.get (webhookEventKey cr) with
  | .error .notFound =>
      let _ ← Client.create (webhookEventKey cr) expected
      return ()
  | .error _ => return ()
  | .ok found =>
      let _ ← Client.update (webhookEventKey cr) { found with
        count := found.count + 1
        message := msg
        reason := msg
        reportingController := "IntegrityShield"
        reportingInstance := evtName }
      return ()

/-- The certificate goes into the first webhook. -/
def setCABundle (cabundle : String) : List MutatingWebhook → List MutatingWebhook
  | [] => []
  | webhook :: rest => { webhook with caBundle := cabundle } :: rest

/-- The webhook with the certificate of the secret, if there is one. -/
def loadCABundle (expected : List MutatingWebhook) (secret : Except Failure Secret) :
    List MutatingWebhook :=
  match secret with
  | .error _ => expected
  | .ok secret =>
      match secret.data.lookup "ca.crt" with
      | some cabundle => setCABundle cabundle expected
      | none => expected

/-- The secret with the certificate of the server. -/
abbrev IntegrityShieldCR.tlsSecretKey : Key :=
  ⟨.secret, cr.namespace, cr.getWebhookServerTlsSecretName⟩

/-- The branch of `createOrUpdateWebhook` for a webhook that is missing. -/
def registerWebhook (expected : Object .mutatingWebhookConfiguration) : Step := do
  let secret ← Client.get cr.tlsSecretKey
  let answer ← Client.create (Key.webhook expected.name) (loadCABundle expected.content secret)
  match answer with
  | .ok () => createOrUpdateWebhookEvent cr expected.name
  | .error _ => pure ()
  return .ofCreate answer

/-- `createOrUpdateWebhook`. -/
def createOrUpdateWebhook : Step :=
  withBuilt (buildMutatingWebhookConfigurationForIShield env cr) fun expected => do
    match ← Client.get (Key.webhook expected.name) with
    | .ok _ => return .proceed
    | .error .notFound => registerWebhook cr expected
    | .error _ => return .failed

/-- `deleteWebhook`. -/
def deleteWebhook : Step :=
  withBuilt (buildMutatingWebhookConfigurationForIShield env cr) fun expected =>
    discard (.webhook expected.name)

/-! ## Reconcile -/

/-- The first stage of a pass: without the keys there is nothing to do yet. -/
def keyRingStage : Step := do
  if ← isKeyRingReady cr.namespace cr.spec.keyConfig then return .proceed else return .requeue

/-- The stages of a pass before the webhook, each with the keys of the objects it is about. -/
def stages : List (List Key × Step) :=
  let ns := cr.namespace
  let crd (expected : Object .customResourceDefinition) : List Key × Step :=
    ([.crd expected.name], createOrUpdateCRD expected)
  [([], keyRingStage cr),
    crd (buildShieldConfigCRD cr), crd (buildSignerConfigCRD cr),
    crd (buildResourceSignatureCRD cr), crd (buildResourceSigningProfileCRD cr),
    (match cr.helmEnabled with
      | .error f => ([], return .fault f)
      | .ok true => crd (buildHelmReleaseMetadataCRD cr)
      | .ok false => ([], return .proceed)),
    ([⟨.shieldConfig, ns, cr.getShieldConfigCRName⟩], createOrUpdateShieldConfigCR env cr),
    ([⟨.signerConfig, ns, cr.getSignerConfigCRName⟩], createOrUpdateSignerConfigCR cr)] ++
  (cr.spec.resourceSigningProfiles.map fun prof =>
    (prof.toList.map fun prof => ⟨.resourceSigningProfile, ns, prof.name⟩,
      createOrUpdateResourceSigningProfileCR cr prof)) ++
  [([⟨.secret, ns, cr.getWebhookServerTlsSecretName⟩], createOrUpdateTlsSecret env cr),
    ([⟨.serviceAccount, ns, cr.getServiceAccountName⟩], createOrUpdateServiceAccount cr),
    ([⟨.clusterRole, "", cr.getClusterRoleName⟩],
      createOrUpdateClusterRole (buildClusterRoleForIShield cr)),
    ([⟨.clusterRoleBinding, "", cr.getClusterRoleBindingName⟩],
      createOrUpdateClusterRoleBinding (buildClusterRoleBindingForIShield cr)),
    ([⟨.role, ns, cr.getDryRunRoleName⟩],
      createOrUpdateRole cr (buildRoleForIShield cr)),
    ([⟨.roleBinding, ns, cr.getDryRunRoleBindingName⟩],
      createOrUpdateRoleBinding cr (buildRoleBindingForIShield cr))] ++
  (if cr.spec.security.autoIShieldAdminCreationDisabled then []
  else [
    ([⟨.clusterRole, "", cr.getIShieldAdminClusterRoleName⟩],
      createOrUpdateClusterRole (buildClusterRoleForIShieldAdmin cr)),
    ([⟨.clusterRoleBinding, "", cr.getIShieldAdminClusterRoleBindingName⟩],
      createOrUpdateClusterRoleBinding (buildClusterRoleBindingForIShieldAdmin cr)),
    ([⟨.role, ns, cr.getIShieldAdminRoleName⟩],
      createOrUpdateRole cr (buildRoleForIShieldAdmin cr)),
    ([⟨.roleBinding, ns, cr.getIShieldAdminRoleBindingName⟩],
      createOrUpdateRoleBinding cr (buildRoleBindingForIShieldAdmin cr))]) ++
  [([⟨.podSecurityPolicy, "", cr.getPodSecurityPolicyName⟩], createOrUpdatePodSecurityPolicy cr),
    ([⟨.deployment, ns, cr.getIShieldServerDeploymentName⟩], createOrUpdateWebhookDeployment cr),
    ([⟨.service, ns, cr.getWebhookServiceName⟩], createOrUpdateWebhookService cr)]

/-- The last stage of a pass. -/
def webhookStage : Step := do
  if ← isDeploymentAvailable cr then createOrUpdateWebhook env cr
  else deleteWebhook env cr

/-- The steps of `deleteClusterScopedChildrenResources`, each with the keys that it deletes. -/
def cleanupSteps : List (List Key × Step) :=
  let crd (expected : Object .customResourceDefinition) : List Key × Step :=
    ([.crd expected.name], deleteCRD expected)
  [([.webhook cr.getWebhookConfigName], deleteWebhook env cr),
    ([⟨.podSecurityPolicy, "", cr.getPodSecurityPolicyName⟩], deletePodSecurityPolicy cr)] ++
  (if cr.spec.security.autoIShieldAdminCreationDisabled then []
  else [
    ([⟨.clusterRoleBinding, "", cr.getIShieldAdminClusterRoleBindingName⟩],
      deleteClusterRoleBinding (buildClusterRoleBindingForIShieldAdmin cr)),
    ([⟨.clusterRole, "", cr.getIShieldAdminClusterRoleName⟩],
      deleteClusterRole (buildClusterRoleForIShieldAdmin cr))]) ++
  [([⟨.clusterRoleBinding, "", cr.getClusterRoleBindingName⟩],
      deleteClusterRoleBinding (buildClusterRoleBindingForIShield cr)),
    ([⟨.clusterRole, "", cr.getClusterRoleName⟩],
      deleteClusterRole (buildClusterRoleForIShield cr)),
    (match cr.helmEnabled with
      | .error f => ([], return .fault f)
      | .ok true => crd (buildHelmReleaseMetadataCRD cr)
      | .ok false => ([], return .proceed)),
    crd (buildResourceSigningProfileCRD cr), crd (buildResourceSignatureCRD cr),
    crd (buildSignerConfigCRD cr), crd (buildShieldConfigCRD cr)]

/-- `deleteClusterScopedChildrenResources`: only an error ends it. -/
def deleteClusterScopedChildrenResources : Step :=
  inOrder Outcome.isFine ((cleanupSteps env cr).map Prod.snd)

/-- The key of an `IntegrityShield` resource. -/
abbrev Key.resource («namespace» name : String) : Key := ⟨.integrityShield, «namespace», name⟩

/-- The key of a resource itself. -/
abbrev IntegrityShieldCR.key (self : IntegrityShieldCR) : Key :=
  .resource self.namespace self.name

/-- A resource without one of its finalizers: `removeString`. -/
def IntegrityShieldCR.removeFinalizer (self : IntegrityShieldCR) (name : String) :
    IntegrityShieldCR :=
  { self with finalizers := self.finalizers.filter (· ≠ name) }

/-- The part of `Reconcile` for a resource under deletion. -/
def finalize : Step :=
  if cleanupFinalizerName ∈ cr.finalizers then do
    let outcome ← deleteClusterScopedChildrenResources env cr
    if outcome.isFine then
      return .ofWrite .proceed (← Client.update cr.key
        (cr.removeFinalizer cleanupFinalizerName))
    else return outcome
  else return .proceed

/-- The rest of `Reconcile`. -/
def reconcileLive : Step :=
  inOrder Outcome.isProceed ((stages env cr).map Prod.snd ++ [webhookStage env cr])

/-- The resource that a pass works with: the stored one, with the defaults merged in. -/
def Environment.effective (stored : IntegrityShieldCR) : IntegrityShieldCR :=
  if stored.spec.ignoreDefaultIShieldCR then stored else env.mergeDefaultIntegrityShieldCR stored

/-- `Reconcile`, for the resource under a key. -/
def reconcile («namespace» name : String) : Step := do
  match ← Client.get (Key.resource «namespace» name) with
  | .error .notFound => return .proceed
  | .error _ => return .failed
  | .ok stored =>
      if (env.effective stored).deletionTimestamp then finalize env (env.effective stored)
      else reconcileLive env (env.effective stored)

variable {env} {srv : Server Key.Content} {s : Session Key.Content} {«namespace» name : String}

/-- A pass that finds the resource. -/
theorem run_reconcile_ok {stored : IntegrityShieldCR}
    (hget : (s.ask srv (.get (.resource «namespace» name))).1 = .ok stored) :
    (reconcile env «namespace» name).run srv s =
      (if (env.effective stored).deletionTimestamp then finalize env (env.effective stored)
        else reconcileLive env (env.effective stored)).run srv
          (s.ask srv (.get (.resource «namespace» name))).2 := by
  simp only [reconcile, Client.run_bind, Client.run_get, hget]

/-- A pass that does not find the resource has no more to ask. -/
theorem run_reconcile_error {e : Failure}
    (hget : (s.ask srv (.get (.resource «namespace» name))).1 = .error e) :
    ((reconcile env «namespace» name).run srv s).2 =
      (s.ask srv (.get (.resource «namespace» name))).2 := by
  simp only [reconcile, Client.run_bind, Client.run_get, hget]
  cases e <;> rfl

/-- The writes of a pass are those of the branch for the resource that it has found. -/
theorem exists_stored_of_write (hs : s.log = []) {before after : List (Event Key.Content)}
    {e : Event Key.Content} (hwrite : e.1.isGet = false)
    (hlog : ((reconcile env «namespace» name).run srv s).2.log = before ++ e :: after) :
    ∃ (stored : IntegrityShieldCR) (s' : Session Key.Content),
      s'.log = [⟨.get (.resource «namespace» name), .ok stored⟩] ∧ s'.log ⊆ before ∧
      (reconcile env «namespace» name).run srv s =
        (if (env.effective stored).deletionTimestamp then finalize env (env.effective stored)
          else reconcileLive env (env.effective stored)).run srv s' := by
  have hask : (s.ask srv (.get (.resource «namespace» name))).2.log =
      [⟨_, (s.ask srv (.get (.resource «namespace» name))).1⟩] := by
    rw [Session.ask_log, hs, List.nil_append]
  cases hget : (s.ask srv (.get (.resource «namespace» name))).1 with
  | error f =>
      rw [run_reconcile_error hget, hask] at hlog
      have he : e ∈ before ++ e :: after := List.mem_append_right _ (List.mem_cons_self ..)
      rw [← hlog] at he
      rw [List.mem_singleton.1 he] at hwrite
      cases hwrite
  | ok stored =>
      have hrun : (reconcile env «namespace» name).run srv s = _ := run_reconcile_ok hget
      rw [hget] at hask
      refine ⟨stored, _, hask, ?_, hrun⟩
      rw [hrun] at hlog
      refine Client.log_before hlog fun he => ?_
      rw [hask] at he
      rw [List.mem_singleton.1 he] at hwrite
      cases hwrite

end CreateOrUpdate

end Operator
end IntegrityShield
