/-
# The custom resource of the operator

`api/v1alpha1/integrityshield_types.go`: the `IntegrityShield` resource that the
operator reconciles, and the names that it gives to the objects it manages.

What the operator hands on to the cluster without reading it (affinities, security
contexts, resource limits) is a JSON value here.  A map that is nil and an empty
one are the same; where the operator tells them apart, it does so by
`reflect.DeepEqual`, which is left open.
-/

import IntegrityShield.Apis.ProfileStatus
import IntegrityShield.Apis.ResourceSigningProfile
import IntegrityShield.Mapnode.Value
import IntegrityShield.Operator.KeyPathList

namespace IntegrityShield
namespace Operator

open Apis Common Mapnode Shield

/-- `map[string]string`. -/
abbrev Labels := GoMap String String

/-! ## Parts of the specification -/

/-- `admissionregistration/v1.Rule`; the scope is set by the operator. -/
structure WebhookRule where
  apiGroups : List String := []
  apiVersions : List String := []
  resources : List String := []

/-- `rbac/v1.Subject`. -/
structure Subject where
  kind : String := ""
  apiGroup : String := ""
  name : String := ""
  «namespace» : String := ""
deriving DecidableEq

/-- `SecurityConfig`. -/
structure SecurityConfig where
  serviceAccountName : String := ""
  clusterRole : String := ""
  clusterRoleBinding : String := ""
  podSecurityPolicyName : String := ""
  podSecurityContext : Json := .null
  iShieldAdminSubjects : List Subject := []
  autoIShieldAdminCreationDisabled : Bool := false

/-- `KeyConfig`, with the secret that the key is in. -/
structure SecretKeyConfig extends KeyConfig where
  secretName : String := ""

/-- `ServerContainer`. -/
structure ServerContainer where
  name : String := ""
  securityContext : Json := .null
  imagePullPolicy : String := ""
  image : String := ""
  port : ℤ := 0
  resources : Json := .null
  chartBaseUrl : String := ""
  shieldCmReloadSec : ℤ := 0
  enforcePolicyReloadSec : ℤ := 0

/-- `EsConfig`. -/
structure EsConfig where
  enabled : Bool := false
  scheme : String := ""
  host : String := ""
  port : ℤ := 0
  sslVerify : Bool := false
  indexPrefix : String := ""
  clientKey : String := ""
  clientCert : String := ""
  caFile : String := ""

/-- `HttpConfig`. -/
structure HttpConfig where
  enabled : Bool := false
  endpoint : String := ""

/-- `LoggerContainer`. -/
structure LoggerContainer where
  enabled : Option Bool := none
  name : String := ""
  securityContext : Json := .null
  imagePullPolicy : String := ""
  image : String := ""
  stdOutput : Bool := false
  httpConfig : Option HttpConfig := none
  resources : Json := .null
  esConfig : Option EsConfig := none
  esSecretName : String := ""

/-- `ObserverContainer`. -/
structure ObserverContainer where
  enabled : Option Bool := none
  name : String := ""
  securityContext : Json := .null
  imagePullPolicy : String := ""
  image : String := ""
  resources : Json := .null

/-- `ShieldConfig`, with the fields that the operator reads or sets and the checks of the
server do not. -/
structure OperatorShieldConfig extends ShieldConfig where
  signatureNamespace : String := ""
  profileNamespace : String := ""
  iShieldCRName : String := ""
  options : List String := []

/-- `ProfileConfig`; the specification is a pointer. -/
structure ProfileConfig where
  resourceSigningProfileSpec : Option ResourceSigningProfileSpec := none
  name : String := ""

/-- `IntegrityShieldSpec`. -/
structure IntegrityShieldCRSpec where
  maxSurge : Json := .null
  maxUnavailable : Json := .null
  replicaCount : Option ℤ := none
  metaLabels : Labels := ∅
  selectorLabels : Labels := ∅
  nodeSelector : Labels := ∅
  affinity : Json := .null
  tolerations : Json := .null
  imagePullSecrets : Json := .null
  ignoreDefaultIShieldCR : Bool := false
  security : SecurityConfig := {}
  keyConfig : List SecretKeyConfig := []
  server : ServerContainer := {}
  logger : LoggerContainer := {}
  observer : ObserverContainer := {}
  regKeySecretName : String := ""
  shieldConfigCrName : String := ""
  shieldConfig : Option OperatorShieldConfig := none
  ignoreRules : List Rule := []
  ignoreAttrs : List AttrsPattern := []
  signerConfig : Option SignerConfig := none
  resourceSigningProfiles : List (Option ProfileConfig) := []
  webhookServerTlsSecretName : String := ""
  webhookServiceName : String := ""
  webhookConfigName : String := ""
  webhookNamespacedResource : WebhookRule := {}
  webhookClusterResource : WebhookRule := {}

/-- `IntegrityShield`; of the time of a deletion only whether it is set is read. -/
structure IntegrityShieldCR where
  kind : String := ""
  name : String := ""
  «namespace» : String := ""
  deletionTimestamp : Bool := false
  finalizers : List String := []
  spec : IntegrityShieldCRSpec := {}

/-! ## Names -/

/-- `CleanupFinalizerName`. -/
def cleanupFinalizerName : String := "cleanup.finalizers.integrityshield.io"

namespace IntegrityShieldCR

def getIntegrityShieldCRDName (_self : IntegrityShieldCR) : String :=
  "integrityshields.apis.integrityshield.io"

def getShieldConfigCRDName (_self : IntegrityShieldCR) : String :=
  "shieldconfigs.apis.integrityshield.io"

def getSignerConfigCRDName (_self : IntegrityShieldCR) : String :=
  "signerconfigs.apis.integrityshield.io"

def getResourceSignatureCRDName (_self : IntegrityShieldCR) : String :=
  "resourcesignatures.apis.integrityshield.io"

def getResourceSigningProfileCRDName (_self : IntegrityShieldCR) : String :=
  "resourcesigningprofiles.apis.integrityshield.io"

def getHelmReleaseMetadataCRDName (_self : IntegrityShieldCR) : String :=
  "helmreleasemetadatas.apis.integrityshield.io"

def getShieldConfigCRName (self : IntegrityShieldCR) : String := self.spec.shieldConfigCrName

def getSignerConfigCRName (_self : IntegrityShieldCR) : String := "signer-config"

def getRegKeySecretName (self : IntegrityShieldCR) : String := self.spec.regKeySecretName

def getWebhookServerTlsSecretName (self : IntegrityShieldCR) : String :=
  self.spec.webhookServerTlsSecretName

def getServiceAccountName (self : IntegrityShieldCR) : String :=
  self.spec.security.serviceAccountName

def getClusterRoleName (self : IntegrityShieldCR) : String := self.spec.security.clusterRole

def getClusterRoleBindingName (self : IntegrityShieldCR) : String :=
  self.spec.security.clusterRoleBinding

def getDryRunRoleName (self : IntegrityShieldCR) : String :=
  self.spec.security.clusterRole ++ "-sim"

def getDryRunRoleBindingName (self : IntegrityShieldCR) : String :=
  self.spec.security.clusterRoleBinding ++ "-sim"

def getIShieldAdminClusterRoleName (_self : IntegrityShieldCR) : String :=
  "ishield-admin-clusterrole"

def getIShieldAdminClusterRoleBindingName (_self : IntegrityShieldCR) : String :=
  "ishield-admin-clusterrolebinding"

def getIShieldAdminRoleName (_self : IntegrityShieldCR) : String := "ishield-admin-role"

def getIShieldAdminRoleBindingName (_self : IntegrityShieldCR) : String :=
  "ishield-admin-rolebinding"

def getPodSecurityPolicyName (self : IntegrityShieldCR) : String :=
  self.spec.security.podSecurityPolicyName

def getIShieldServerDeploymentName (self : IntegrityShieldCR) : String := self.name

def getWebhookServiceName (self : IntegrityShieldCR) : String := self.spec.webhookServiceName

def getWebhookConfigName (self : IntegrityShieldCR) : String := self.spec.webhookConfigName

/-- The helm plugin is enabled: `GetEnabledPlugins()["helm"]`, which follows the pointer to
the shield configuration. -/
def helmEnabled (self : IntegrityShieldCR) : Go Bool := do
  let shieldConfig ← Go.deref self.spec.shieldConfig
  return (shieldConfig.getEnabledPlugins.lookup "helm").getD false

end IntegrityShieldCR

/-! ## Objects of the cluster -/

/-- The kinds of objects that the operator reads or writes. -/
inductive Kind where
  | integrityShield
  | customResourceDefinition
  | shieldConfig
  | signerConfig
  | resourceSigningProfile
  | secret
  | serviceAccount
  | clusterRole
  | clusterRoleBinding
  | role
  | roleBinding
  | podSecurityPolicy
  | deployment
  | service
  | mutatingWebhookConfiguration
  | event
deriving DecidableEq, Repr

/-- The name of a kind, as the scheme resolves it. -/
def Kind.toString : Kind → String
  | integrityShield => "IntegrityShield"
  | customResourceDefinition => "CustomResourceDefinition"
  | shieldConfig => "ShieldConfig"
  | signerConfig => "SignerConfig"
  | resourceSigningProfile => "ResourceSigningProfile"
  | secret => "Secret"
  | serviceAccount => "ServiceAccount"
  | clusterRole => "ClusterRole"
  | clusterRoleBinding => "ClusterRoleBinding"
  | role => "Role"
  | roleBinding => "RoleBinding"
  | podSecurityPolicy => "PodSecurityPolicy"
  | deployment => "Deployment"
  | service => "Service"
  | mutatingWebhookConfiguration => "MutatingWebhookConfiguration"
  | event => "Event"

/-- Objects of this kind are in no namespace. -/
def Kind.isClusterScoped : Kind → Bool
  | customResourceDefinition => true
  | clusterRole => true
  | clusterRoleBinding => true
  | podSecurityPolicy => true
  | mutatingWebhookConfiguration => true
  | _ => false

/-- What an object is found by; the namespace of a cluster-scoped one is empty. -/
structure Key where
  kind : Kind
  «namespace» : String := ""
  name : String
deriving DecidableEq, Repr

/-- `CustomResourceDefinitionVersion`. -/
structure CustomResourceDefinitionVersion where
  name : String
  served : Bool
  storage : Bool

/-- `CustomResourceDefinitionSpec`; what the operator does not set is `others`. -/
structure CustomResourceDefinitionSpec where
  group : String
  kind : String
  plural : String
  listKind : String
  singular : String
  shortNames : List String := []
  scope : String
  validation : Json
  versions : List CustomResourceDefinitionVersion
  others : Json := .null

/-- `rbac/v1.PolicyRule`. -/
structure PolicyRule where
  apiGroups : List String
  resources : List String
  verbs : List String

/-- `rbac/v1.RoleRef`. -/
structure RoleRef where
  apiGroup : String
  kind : String
  name : String

/-- `ClusterRole` and `Role`. -/
structure RoleContent where
  labels : Labels
  rules : List PolicyRule

/-- `ClusterRoleBinding` and `RoleBinding`. -/
structure RoleBindingContent where
  labels : Labels
  subjects : List Subject
  roleRef : RoleRef

/-- `core/v1.Secret`. -/
structure Secret where
  data : GoMap String String := ∅
  type : String := ""

/-- `core/v1.VolumeMount`. -/
structure VolumeMount where
  mountPath : String
  name : String
  readOnly : Bool := false
deriving DecidableEq

/-- `core/v1.Volume`: of a secret, or empty at the start. -/
inductive Volume where
  | secret (name secretName : String)
  | emptyDir (name : String)
deriving DecidableEq

/-- `core/v1.Handler`: what a probe does. -/
inductive ProbeHandler where
  | httpGet (path : String) (port : ℤ) (scheme : String)
  | exec (command : List String)

/-- `core/v1.Probe`. -/
structure Probe where
  initialDelaySeconds : ℤ
  periodSeconds : ℤ
  handler : ProbeHandler

/-- `core/v1.Container`. -/
structure Container where
  name : String
  image : String
  imagePullPolicy : String
  securityContext : Json
  readinessProbe : Probe
  livenessProbe : Probe
  ports : List (String × ℤ) := []
  volumeMounts : List VolumeMount
  args : List String := []
  env : List (String × String)
  resources : Json

/-- `core/v1.PodSpec`. -/
structure PodSpec where
  imagePullSecrets : Json
  serviceAccountName : String
  securityContext : Json
  containers : List Container
  nodeSelector : Labels
  affinity : Json
  tolerations : Json
  volumes : List Volume

/-- `core/v1.PodTemplateSpec`. -/
structure PodTemplateSpec where
  labels : Labels
  annotations : Labels := ∅
  spec : PodSpec

/-- `apps/v1.DeploymentSpec`. -/
structure DeploymentSpec where
  maxSurge : Json
  maxUnavailable : Json
  replicas : Option ℤ
  selector : Labels
  template : PodTemplateSpec

/-- `apps/v1.Deployment`. -/
structure Deployment where
  labels : Labels
  spec : DeploymentSpec
  availableReplicas : ℤ := 0

/-- `core/v1.Service`. -/
structure Service where
  port : ℤ
  targetPort : String
  selector : Labels

/-- `admissionregistration/v1.RuleWithOperations`. -/
structure RuleWithOperations extends WebhookRule where
  operations : List String
  scope : String

/-- `admissionregistration/v1.MutatingWebhook`. -/
structure MutatingWebhook where
  name : String
  serviceName : String
  serviceNamespace : String
  path : String
  caBundle : String := ""
  rules : List RuleWithOperations
  sideEffects : String
  timeoutSeconds : ℤ
  admissionReviewVersions : List String

/-- `core/v1.Event`, without its times. -/
structure EventContent where
  annotations : Labels := ∅
  involvedObjectKind : String := ""
  involvedObjectName : String := ""
  message : String := ""
  reason : String := ""
  reportingController : String := ""
  reportingInstance : String := ""
  count : ℤ := 0

/-- What the objects of a kind hold. -/
@[reducible] def Kind.Content : Kind → Type
  | integrityShield => IntegrityShieldCR
  | customResourceDefinition => CustomResourceDefinitionSpec
  | shieldConfig => Option OperatorShieldConfig
  | signerConfig => Option SignerConfig
  | resourceSigningProfile => ResourceSigningProfileSpec × ResourceSigningProfileStatus
  | secret => Secret
  | serviceAccount => Labels
  | clusterRole => RoleContent
  | clusterRoleBinding => RoleBindingContent
  | role => RoleContent
  | roleBinding => RoleBindingContent
  | podSecurityPolicy => Labels
  | deployment => Deployment
  | service => Service
  | mutatingWebhookConfiguration => List MutatingWebhook
  | event => EventContent

/-- What is kept under a key. -/
@[reducible] def Key.Content (k : Key) : Type := k.kind.Content

end Operator
end IntegrityShield
