/-
# The objects that the operator builds

`resources/*.go`: what the operator wants each of its objects to be, for an
`IntegrityShield` resource.  All of them get the namespace of the resource; for
the cluster-scoped kinds the cluster drops it again.

Owner references are left out: no modelled function reads them.
-/

import IntegrityShield.Operator.IntegrityShield

namespace IntegrityShield
namespace Operator

open Apis Common Mapnode Shield

/-- What `GenerateCert` gives; after an error all three are empty. -/
structure Certificates where
  ca : String := ""
  tlsKey : String := ""
  tlsCert : String := ""

/-- What the operator finds around it: files, environment variables, and code that is not
its own.  It may differ from one pass to the next. -/
structure Environment where
  /-- `MergeDefaultIntegrityShieldCR`: the merge with the default resource. -/
  mergeDefaultIntegrityShieldCR : IntegrityShieldCR → IntegrityShieldCR := id
  /-- The preset profiles; one that cannot be read is nil. -/
  commonProfiles : List (Option CommonProfile) := []
  /-- The token file of the service account. -/
  saToken : Option String := none
  /-- `jwt.DecodeSegment` and `json.Unmarshal` of the claims. -/
  decodeClaims : String → Option (GoMap String String) := fun _ => none
  podName : String := ""
  podNamespace : String := ""
  /-- `cert.GenerateCert`. -/
  generateCert : String → String → Certificates := fun _ _ => {}
  /-- The file `webhook-rules-for-roks.yaml`. -/
  roksRules : List RuleWithOperations := []

/-- `reflect.DeepEqual`, which also tells nil slices and maps from empty ones. -/
class Reflect where
  deepEqual : {τ : Type} → τ → τ → Bool
  eq_of_deepEqual : ∀ {τ : Type} {a b : τ}, deepEqual a b = true → a = b

/-- An object with its name. -/
structure Object (kind : Kind) where
  name : String
  content : kind.Content

/-! ## Custom resource definitions -/

/-- `buildCRD`, for the names of a definition. -/
def buildCRD (name kind plural listKind singular : String) (shortNames : List String) :
    Object .customResourceDefinition where
  name := name
  content := {
    group := "apis.integrityshield.io"
    kind := kind
    plural := plural
    listKind := listKind
    singular := singular
    shortNames := shortNames
    scope := "Namespaced"
    validation := .obj [("type", .scalar (.str "object")),
      ("x-kubernetes-preserve-unknown-fields", .scalar (.bool true))]
    versions := [⟨"v1alpha1", true, true⟩] }

/-- `BuildSignerConfigCRD`. -/
def buildSignerConfigCRD (cr : IntegrityShieldCR) : Object .customResourceDefinition :=
  buildCRD cr.getSignerConfigCRDName "SignerConfig" "signerconfigs" "SignerConfigList"
    "signerconfig" []

/-- `BuildShieldConfigCRD`. -/
def buildShieldConfigCRD (cr : IntegrityShieldCR) : Object .customResourceDefinition :=
  buildCRD cr.getShieldConfigCRDName "ShieldConfig" "shieldconfigs" "ShieldConfigList"
    "shieldconfig" ["econf", "econfs"]

/-- `BuildResourceSignatureCRD`. -/
def buildResourceSignatureCRD (cr : IntegrityShieldCR) : Object .customResourceDefinition :=
  buildCRD cr.getResourceSignatureCRDName "ResourceSignature" "resourcesignatures"
    "ResourceSignatureList" "resourcesignature" ["rsig", "rsigs"]

/-- `BuildHelmReleaseMetadataCRD`. -/
def buildHelmReleaseMetadataCRD (cr : IntegrityShieldCR) : Object .customResourceDefinition :=
  buildCRD cr.getHelmReleaseMetadataCRDName "HelmReleaseMetadata" "helmreleasemetadatas"
    "HelmReleaseMetadataList" "helmreleasemetadata" ["hrm", "hrms"]

/-- `BuildResourceSigningProfileCRD`. -/
def buildResourceSigningProfileCRD (cr : IntegrityShieldCR) : Object .customResourceDefinition :=
  buildCRD cr.getResourceSigningProfileCRDName "ResourceSigningProfile" "resourcesigningprofiles"
    "ResourceSigningProfileList" "resourcesigningprofile" ["rsp", "rsps"]

/-! ## Custom resources -/

/-- `getOperatorServiceAccount`: the subject of the token; a token without a dot has no second
segment, and the index is out of range. -/
def Environment.getOperatorServiceAccount (env : Environment) : Go String :=
  match env.saToken with
  | none => return ""
  | some token => do
      let claimSeg ← Go.deref (Strings.split token '.')[1]?
      match env.decodeClaims claimSeg with
      | none => return ""
      | some claimMap => return (claimMap.lookup "sub").getD ""

/-- The name of the operator's deployment, from the name of its pod. -/
def Environment.opDeployName (env : Environment) : String :=
  let parts := Strings.split env.podName '-'
  if 2 < parts.length then Strings.join (parts.take (parts.length - 2)) "-" else ""

/-- A reference by kind, name and namespace; the version is not set. -/
def resourceRef (kind name : String) («namespace» : String := "") : ResourceRef :=
  { name, «namespace», kind, apiVersion := "" }

/-- The first list of `GetIShieldResourceList`: what belongs to the operator. -/
def IntegrityShieldCR.operatorResourceList (self : IntegrityShieldCR) (env : Environment) :
    List ResourceRef :=
  [resourceRef Kind.customResourceDefinition.toString self.getIntegrityShieldCRDName,
    resourceRef Kind.deployment.toString env.opDeployName env.podNamespace,
    resourceRef self.kind self.name self.namespace]

/-- The part of the second list of `GetIShieldResourceList` that every resource gives. -/
def IntegrityShieldCR.fixedResourceList (self : IntegrityShieldCR) : List ResourceRef :=
  [resourceRef Kind.customResourceDefinition.toString self.getShieldConfigCRDName,
    resourceRef Kind.customResourceDefinition.toString self.getSignerConfigCRDName,
    resourceRef Kind.customResourceDefinition.toString self.getResourceSignatureCRDName,
    resourceRef Kind.customResourceDefinition.toString self.getResourceSigningProfileCRDName,
    resourceRef Kind.customResourceDefinition.toString self.getHelmReleaseMetadataCRDName,
    resourceRef Kind.shieldConfig.toString self.getShieldConfigCRName self.namespace,
    resourceRef Kind.signerConfig.toString self.getSignerConfigCRName self.namespace,
    resourceRef Kind.secret.toString self.getRegKeySecretName self.namespace,
    resourceRef Kind.secret.toString self.getWebhookServerTlsSecretName self.namespace,
    resourceRef Kind.serviceAccount.toString self.getServiceAccountName self.namespace,
    resourceRef Kind.clusterRole.toString self.getClusterRoleName,
    resourceRef Kind.clusterRoleBinding.toString self.getClusterRoleBindingName,
    resourceRef Kind.role.toString self.getDryRunRoleName self.namespace,
    resourceRef Kind.roleBinding.toString self.getDryRunRoleBindingName self.namespace,
    resourceRef Kind.clusterRole.toString self.getIShieldAdminClusterRoleName,
    resourceRef Kind.clusterRoleBinding.toString self.getIShieldAdminClusterRoleBindingName,
    resourceRef Kind.role.toString self.getIShieldAdminRoleName self.namespace,
    resourceRef Kind.roleBinding.toString self.getIShieldAdminRoleBindingName self.namespace,
    -- the policy is cluster-scoped, but it is listed with a namespace
    resourceRef Kind.podSecurityPolicy.toString self.getPodSecurityPolicyName self.namespace,
    resourceRef Kind.deployment.toString self.getIShieldServerDeploymentName self.namespace]

/-- The second list of `GetIShieldResourceList`: what belongs to the server, the profiles
last. -/
def IntegrityShieldCR.serverResourceList (self : IntegrityShieldCR) : Go (List ResourceRef) := do
  let profiles ← self.spec.resourceSigningProfiles.mapM Go.deref
  return self.fixedResourceList ++ profiles.map fun prof =>
    resourceRef Kind.resourceSigningProfile.toString prof.name self.namespace

/-- The rule that lets the operator's own requests pass. -/
def operatorRule (operatorSA : String) : Rule :=
  { matches_ := [some { userName := some operatorSA }] }

/-- The common profile of `BuildShieldConfigForIShield`: that of the resource, or else the
presets, a rule for the operator, and what the resource adds. -/
def buildCommonProfile (env : Environment) (operatorSA : String) (cr : IntegrityShieldCR) :
    Option CommonProfile → Go CommonProfile
  | some commonProfile => return commonProfile
  | none => do
      let presets ← env.commonProfiles.mapM Go.deref
      return {
        ignoreRules := presets.flatMap CommonProfile.ignoreRules ++
          (if operatorSA ≠ "" then [some (operatorRule operatorSA)] else []) ++
          cr.spec.ignoreRules.map some
        ignoreAttrs := presets.flatMap CommonProfile.ignoreAttrs ++ cr.spec.ignoreAttrs.map some }

/-- A value that is set, or else the default. -/
def orDefault (value default : String) : String := if value = "" then default else value

/-- What `BuildShieldConfigForIShield` fills in. -/
def fillShieldConfig (cr : IntegrityShieldCR) (shieldConfig : OperatorShieldConfig)
    (condition : IShieldResourceCondition) (commonProfile : CommonProfile) :
    OperatorShieldConfig :=
  { shieldConfig with
    «namespace» := orDefault shieldConfig.namespace cr.namespace
    signatureNamespace := orDefault shieldConfig.signatureNamespace cr.namespace
    profileNamespace := orDefault shieldConfig.profileNamespace cr.namespace
    iShieldCRName := orDefault shieldConfig.iShieldCRName cr.name
    iShieldServerUserName := orDefault shieldConfig.iShieldServerUserName
      ("system:serviceaccount:" ++ cr.namespace ++ ":" ++ cr.getServiceAccountName)
    keyPathList := buildKeyPathList {
      shieldConfig := shieldConfig.toShieldConfig
      keyConfig := cr.spec.keyConfig.map SecretKeyConfig.toKeyConfig }
    iShieldResourceCondition := some condition
    commonProfile := some commonProfile }

/-- `BuildShieldConfigForIShield`.  The source fills the configuration of the resource in place;
nothing reads these fields of it afterwards. -/
def buildShieldConfigForIShield (env : Environment) (cr : IntegrityShieldCR) :
    Go (Object .shieldConfig) := do
  let shieldConfig ← Go.deref cr.spec.shieldConfig
  let operatorSA ← env.getOperatorServiceAccount
  let serverResources ← cr.serverResourceList
  let commonProfile ← buildCommonProfile env operatorSA cr shieldConfig.commonProfile
  let condition := {
    operatorResources := (cr.operatorResourceList env).map some
    serverResources := serverResources.map some
    operatorServiceAccount := operatorSA }
  return {
    name := cr.getShieldConfigCRName
    content := some (fillShieldConfig cr shieldConfig condition commonProfile) }

/-- `BuildSignerConfigForIShield`, with its sample for a resource that has none. -/
def buildSignerConfigForIShield (cr : IntegrityShieldCR) : Object .signerConfig where
  name := cr.getSignerConfigCRName
  content := some (cr.spec.signerConfig.getD {
    policies := [{ namespaces := ["sample"], signers := ["SampleSigner"] }]
    signers := [{ name := "SampleSigner", subjects := [{ commonName := "sample" }] }] })

/-- `BuildResourceSigningProfileForIShield`: the status is empty. -/
def buildResourceSigningProfileForIShield (prof : Option ProfileConfig) :
    Go (Object .resourceSigningProfile) := do
  let prof ← Go.deref prof
  let spec ← Go.deref prof.resourceSigningProfileSpec
  return { name := prof.name, content := (spec, {}) }

/-! ## Accounts and roles -/

/-- The labels of the accounts and roles. -/
def securityLabels (cr : IntegrityShieldCR) : Labels :=
  GoMap.writes ∅ [("app", cr.name), ("app.kubernetes.io/name", cr.name),
    ("app.kubernetes.io/managed-by", "operator"), ("role", "security")]

/-- `BuildServiceAccountForIShield`. -/
def buildServiceAccountForIShield (cr : IntegrityShieldCR) : Object .serviceAccount where
  name := cr.getServiceAccountName
  content := securityLabels cr

/-- The subject that the roles of the server are bound to. -/
def serviceAccountSubject (cr : IntegrityShieldCR) : Subject where
  kind := "ServiceAccount"
  name := cr.getServiceAccountName
  «namespace» := cr.namespace

/-- `BuildClusterRoleForIShield`. -/
def buildClusterRoleForIShield (cr : IntegrityShieldCR) : Object .clusterRole where
  name := cr.getClusterRoleName
  content := {
    labels := securityLabels cr
    rules := [
      { apiGroups := ["extensions", "", "apis.integrityshield.io"]
        resources := ["secrets", "namespaces", "resourcesignatures", "shieldconfigs",
          "signerconfigs", "signerconfigs", "resourcesigningprofiles", "resourcesignatures"]
        verbs := ["get", "list", "watch", "patch", "update"] },
      { apiGroups := [""], resources := ["events"], verbs := ["create", "update", "get"] },
      { apiGroups := ["apiextensions.k8s.io"]
        resources := ["customresourcedefinitions"]
        verbs := ["get", "list", "create", "update"] },
      { apiGroups := ["*"], resources := ["*"], verbs := ["get"] }] }

/-- `BuildClusterRoleBindingForIShield`. -/
def buildClusterRoleBindingForIShield (cr : IntegrityShieldCR) : Object .clusterRoleBinding where
  name := cr.getClusterRoleBindingName
  content := {
    labels := securityLabels cr
    subjects := [serviceAccountSubject cr]
    roleRef := ⟨"rbac.authorization.k8s.io", "ClusterRole", cr.spec.security.clusterRole⟩ }

/-- `BuildRoleForIShield`. -/
def buildRoleForIShield (cr : IntegrityShieldCR) : Object .role where
  name := cr.getDryRunRoleName
  content := {
    labels := securityLabels cr
    rules := [{ apiGroups := ["*"], resources := ["*"]
                verbs := ["get", "list", "create", "update"] }] }

/-- `BuildRoleBindingForIShield`. -/
def buildRoleBindingForIShield (cr : IntegrityShieldCR) : Object .roleBinding where
  name := cr.getDryRunRoleBindingName
  content := {
    labels := securityLabels cr
    subjects := [serviceAccountSubject cr]
    roleRef := ⟨"rbac.authorization.k8s.io", "Role", cr.spec.security.clusterRole ++ "-sim"⟩ }

/-- All that one may do with a resource. -/
def adminVerbs : List String := ["update", "create", "delete", "get", "list", "watch", "patch"]

/-- `BuildRoleForIShieldAdmin`. -/
def buildRoleForIShieldAdmin (cr : IntegrityShieldCR) : Object .role where
  name := cr.getIShieldAdminRoleName
  content := {
    labels := securityLabels cr
    rules := [{ apiGroups := [""]
                resources := ["integrityshields", "shieldconfigs", "signerconfigs"]
                verbs := adminVerbs }] }

/-- `BuildRoleBindingForIShieldAdmin`. -/
def buildRoleBindingForIShieldAdmin (cr : IntegrityShieldCR) : Object .roleBinding where
  name := cr.getIShieldAdminRoleBindingName
  content := {
    labels := securityLabels cr
    subjects := cr.spec.security.iShieldAdminSubjects
    roleRef := ⟨"rbac.authorization.k8s.io", "Role", "ishield-admin-role"⟩ }

/-- `BuildClusterRoleForIShieldAdmin`. -/
def buildClusterRoleForIShieldAdmin (cr : IntegrityShieldCR) : Object .clusterRole where
  name := cr.getIShieldAdminClusterRoleName
  content := {
    labels := securityLabels cr
    rules := [{ apiGroups := [""]
                resources := ["resourcesigningprofiles", "resourcesignatures"]
                verbs := adminVerbs }] }

/-- `BuildClusterRoleBindingForIShieldAdmin`. -/
def buildClusterRoleBindingForIShieldAdmin (cr : IntegrityShieldCR) :
    Object .clusterRoleBinding where
  name := cr.getIShieldAdminClusterRoleBindingName
  content := {
    labels := securityLabels cr
    subjects := cr.spec.security.iShieldAdminSubjects
    roleRef := ⟨"rbac.authorization.k8s.io", "ClusterRole", "ishield-admin-clusterrole"⟩ }

/-- `BuildPodSecurityPolicy`, without its constant specification. -/
def buildPodSecurityPolicy (cr : IntegrityShieldCR) : Object .podSecurityPolicy where
  name := cr.getPodSecurityPolicyName
  content := GoMap.writes ∅ [("app", cr.name)]

/-! ## Secret and service -/

/-- `BuildTlsSecretForIShield`, and `addCertValues`, which finds all three entries. -/
def buildTlsSecretForIShield (env : Environment) (cr : IntegrityShieldCR) : Object .secret where
  name := cr.getWebhookServerTlsSecretName
  content :=
    let certs := env.generateCert cr.getWebhookServiceName cr.namespace
    { data := GoMap.writes ∅ [("tls.crt", certs.tlsCert), ("tls.key", certs.tlsKey),
        ("ca.crt", certs.ca)]
      type := "kubernetes.io/tls" }

/-- `BuildServiceForIShield`. -/
def buildServiceForIShield (cr : IntegrityShieldCR) : Object .service where
  name := cr.getWebhookServiceName
  content := { port := 443, targetPort := "ac-api", selector := cr.spec.selectorLabels }

/-! ## Deployment -/

/-- The volumes of the pod: `BuildDeploymentForIShield` lists one for each key. -/
def serverVolumes (cr : IntegrityShieldCR) : List Volume :=
  [.secret "ishield-tls-certs" cr.getWebhookServerTlsSecretName, .emptyDir "log-volume",
    .emptyDir "tmp"] ++
  cr.spec.keyConfig.map fun keyConf => .secret keyConf.name keyConf.secretName

/-- The mounts of the server and of the observer. -/
def serverVolumeMounts (cr : IntegrityShieldCR) : List VolumeMount :=
  [{ mountPath := "/run/secrets/tls", name := "ishield-tls-certs", readOnly := true },
    { mountPath := "/tmp", name := "tmp" },
    { mountPath := "/ishield-app/public", name := "log-volume" }] ++
  cr.spec.keyConfig.map fun keyConf =>
    { mountPath := "/" ++ keyConf.name ++ "/" ++ keyConf.sigType ++ "/", name := keyConf.name }

/-- The certificates for the log store are mounted. -/
def EsConfig.tls (es : EsConfig) : Bool := es.enabled && decide (es.scheme = "https")

/-- The mounts of the logger. -/
def loggerVolumeMounts (es : EsConfig) : List VolumeMount :=
  { mountPath := "/ishield-app/public", name := "log-volume" } ::
    if es.tls then
      [{ mountPath := "/run/secrets/es_tls", name := "es-tls-certs", readOnly := true }]
    else []

/-- `strconv.Itoa` of a signed number. -/
def itoa (n : ℤ) : String := if n < 0 then "-" ++ Strings.itoa n.natAbs else Strings.itoa n.natAbs

/-- A probe that asks the server. -/
def httpProbe (path : String) : Probe := ⟨10, 10, .httpGet path 8443 "HTTPS"⟩

/-- A probe that lists a directory. -/
def execProbe : Probe := ⟨10, 10, .exec ["ls"]⟩

/-- The container of the server. -/
def serverContainer (cr : IntegrityShieldCR) : Container where
  name := cr.spec.server.name
  image := cr.spec.server.image
  imagePullPolicy := cr.spec.server.imagePullPolicy
  securityContext := cr.spec.server.securityContext
  readinessProbe := httpProbe "/health/readiness"
  livenessProbe := httpProbe "/health/liveness"
  ports := [("ac-api", cr.spec.server.port)]
  volumeMounts := serverVolumeMounts cr
  env := [("SHIELD_NS", cr.namespace), ("SHIELD_CONFIG_NAME", cr.getShieldConfigCRName),
    ("CHART_BASE_URL", cr.spec.server.chartBaseUrl),
    ("SHIELD_CM_RELOAD_SEC", itoa cr.spec.server.shieldCmReloadSec),
    ("SHIELD_POLICY_RELOAD_SEC", itoa cr.spec.server.enforcePolicyReloadSec)]
  resources := cr.spec.server.resources

/-- The container of the logger. -/
def loggerContainer (cr : IntegrityShieldCR) (http : HttpConfig) (es : EsConfig) : Container where
  name := cr.spec.logger.name
  image := cr.spec.logger.image
  imagePullPolicy := cr.spec.logger.imagePullPolicy
  securityContext := cr.spec.logger.securityContext
  readinessProbe := execProbe
  livenessProbe := execProbe
  volumeMounts := loggerVolumeMounts es
  env := [("STDOUT_ENABLED", toString cr.spec.logger.stdOutput),
    ("HTTPOUT_ENABLED", toString http.enabled), ("HTTPOUT_ENDPOINT_URL", http.endpoint),
    ("ES_ENABLED", toString es.enabled), ("FLUENT_ELASTICSEARCH_SCHEME", es.scheme),
    ("FLUENT_ELASTICSEARCH_HOST", es.host), ("FLUENT_ELASTICSEARCH_PORT", itoa es.port),
    ("FLUENT_ELASTICSEARCH_SSL_VERIFY", toString es.sslVerify),
    ("CA_FILE", "/run/secrets/es_tls/" ++ es.caFile),
    ("CLIENT_CERT", "/run/secrets/es_tls/" ++ es.clientCert),
    ("CLIENT_KEY", "/run/secrets/es_tls/" ++ es.clientKey), ("ES_INDEX_PREFIX", es.indexPrefix),
    ("EVENTS_FILE_PATH", "/ishield-app/public/events.txt")]
  resources := cr.spec.logger.resources

/-- The container of the observer. -/
def observerContainer (cr : IntegrityShieldCR) : Container where
  name := cr.spec.observer.name
  image := cr.spec.observer.image
  imagePullPolicy := cr.spec.observer.imagePullPolicy
  securityContext := cr.spec.observer.securityContext
  readinessProbe := execProbe
  livenessProbe := execProbe
  volumeMounts := serverVolumeMounts cr
  env := [("SHIELD_NS", cr.namespace), ("SHIELD_CONFIG_NAME", cr.getShieldConfigCRName),
    ("EVENTS_FILE_PATH", "/ishield-app/public/events.txt")]
  resources := cr.spec.observer.resources

/-- `BuildDeploymentForIShield`; the settings of the logger are followed even if it is not
enabled. -/
def buildDeploymentForIShield (cr : IntegrityShieldCR) : Go (Object .deployment) := do
  let es ← Go.deref cr.spec.logger.esConfig
  let http ← Go.deref cr.spec.logger.httpConfig
  let volumes := serverVolumes cr ++
    if es.tls then [.secret "es-tls-certs" cr.spec.logger.esSecretName] else []
  let containers := serverContainer cr ::
    ((if cr.spec.logger.enabled.getD false then [loggerContainer cr http es] else []) ++
      if cr.spec.observer.enabled.getD false then [observerContainer cr] else [])
  return {
    name := cr.getIShieldServerDeploymentName
    content := {
      labels := cr.spec.metaLabels
      spec := {
        maxSurge := cr.spec.maxSurge
        maxUnavailable := cr.spec.maxUnavailable
        replicas := cr.spec.replicaCount
        selector := cr.spec.selectorLabels
        template := {
          labels := cr.spec.selectorLabels
          spec := {
            imagePullSecrets := cr.spec.imagePullSecrets
            serviceAccountName := cr.getServiceAccountName
            securityContext := cr.spec.security.podSecurityContext
            containers := containers
            nodeSelector := cr.spec.nodeSelector
            affinity := cr.spec.affinity
            tolerations := cr.spec.tolerations
            volumes := volumes } } } } }

section Equal

variable [Reflect]

/-- `EqualContainers`. -/
def equalContainers (expected found : Container) : Bool :=
  Reflect.deepEqual found.name expected.name && Reflect.deepEqual found.image expected.image &&
  Reflect.deepEqual found.imagePullPolicy expected.imagePullPolicy &&
  Reflect.deepEqual found.volumeMounts expected.volumeMounts &&
  Reflect.deepEqual found.securityContext expected.securityContext &&
  Reflect.deepEqual found.ports expected.ports && Reflect.deepEqual found.args expected.args &&
  Reflect.deepEqual found.env expected.env

/-- `EqualPods`: of the containers only the first ones are compared. -/
def equalPods (expected found : PodTemplateSpec) : Go Bool := do
  if !Reflect.deepEqual found.labels expected.labels then return false
  if !Reflect.deepEqual found.annotations expected.annotations then return false
  if !Reflect.deepEqual found.spec.serviceAccountName expected.spec.serviceAccountName then
    return false
  if found.spec.containers.length ≠ expected.spec.containers.length then return false
  let expectedContainer ← Go.deref expected.spec.containers[0]?
  let foundContainer ← Go.deref found.spec.containers[0]?
  return equalContainers expectedContainer foundContainer

/-- `EqualDeployments`. -/
def equalDeployments (expected found : Deployment) : Go Bool := do
  if !Reflect.deepEqual found.labels expected.labels then return false
  equalPods expected.spec.template found.spec.template

end Equal

/-! ## Webhook -/

/-- The operations that the webhook is called for. -/
def webhookOperations : List String := ["CREATE", "DELETE", "UPDATE"]

/-- `BuildMutatingWebhookConfigurationForIShield`. -/
def buildMutatingWebhookConfigurationForIShield (env : Environment) (cr : IntegrityShieldCR) :
    Go (Object .mutatingWebhookConfiguration) := do
  let shieldConfig ← Go.deref cr.spec.shieldConfig
  let rules :=
    if exactMatchWithPatternArray "roks" shieldConfig.options then env.roksRules
    else [
      { cr.spec.webhookNamespacedResource with
        operations := webhookOperations, scope := "Namespaced" },
      { cr.spec.webhookClusterResource with operations := webhookOperations, scope := "Cluster" }]
  return {
    name := cr.getWebhookConfigName
    content := [{
      name := "ac-server." ++ cr.namespace ++ ".svc"
      serviceName := cr.getWebhookServiceName
      serviceNamespace := cr.namespace
      path := "/mutate"
      rules := rules
      sideEffects := "None"
      timeoutSeconds := 10
      admissionReviewVersions := ["v1", "v1beta1"] }] }

end Operator
end IntegrityShield
