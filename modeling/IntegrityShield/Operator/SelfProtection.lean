/-
# The shield's own objects, from both sides

The operator manages objects, and it lists in the configuration of the server the objects
that the server is to guard as the shield's own (`GetIShieldResourceList`).  The two agree
but for three kinds (`managed_isShieldResource_iff`): services and the webhook are not
listed, and the pod security policy is listed with a namespace that it does not have.

All the other managed objects may be changed by the operator, the server, and accounts of the
cluster, and by no one else unless the glass is broken (`managed_allowed_iff`): a server with
this configuration does not lock out its operator.
-/

import IntegrityShield.Operator.WebhookOrder
import IntegrityShield.Shield.Mediation

namespace IntegrityShield
namespace Operator

open Common Shield ObjectStore Reconciler

/-- The request is about an object. -/
structure About (reqc : ReqContext) (k : Key) : Prop where
  kind : reqc.kind = k.kind.toString
  «namespace» : reqc.namespace = k.namespace
  name : reqc.name = k.name

/-- How an object is listed. -/
def Key.ref (k : Key) : ResourceRef := resourceRef k.kind.toString k.name k.namespace

/-- The kinds of the managed objects that are not listed, or not as they are found. -/
def Kind.isUnguarded : Kind → Bool
  | .service => true
  | .podSecurityPolicy => true
  | .mutatingWebhookConfiguration => true
  | _ => false

/-! ## The lists -/

theorem eq_map_some_of_mapM_deref {α : Type} {l : List (Option α)} {l' : List α}
    (h : l.mapM Go.deref = .ok l') : l = l'.map some := by
  induction l generalizing l' with
  | nil =>
      rw [List.mapM_nil] at h
      rw [← Except.ok.inj h]
      rfl
  | cons a l ih =>
      rw [List.mapM_cons] at h
      obtain ⟨b, hb, h⟩ := Go.bind_eq_ok.1 h
      obtain ⟨bs, hbs, h⟩ := Go.bind_eq_ok.1 h
      rw [← Except.ok.inj h, ih hbs, Go.deref_eq_ok.1 hb]
      rfl

theorem isListedResource_map_some (refs : List ResourceRef) (ref : ResourceRef) :
    isListedResource (refs.map some) ref =
      .ok (refs.any fun refi => equalsWithoutVersionCheck refi ref) := by
  unfold isListedResource
  rw [Go.anyM_eq_any (f := fun refi => refi.elim false fun refi =>
    equalsWithoutVersionCheck refi ref), List.any_map]
  · rfl
  · rintro (_ | refi) hrefi
    · obtain ⟨_, _, hnone⟩ := List.mem_map.1 hrefi
      cases hnone
    · rfl

theorem equalsWithoutVersionCheck_about {reqc : ReqContext} {k : Key} (h : About reqc k)
    (refi : ResourceRef) : equalsWithoutVersionCheck refi reqc.resourceRef = true ↔
      refi.name = k.name ∧ refi.namespace = k.namespace ∧ refi.kind = k.kind.toString := by
  simp only [equalsWithoutVersionCheck, ReqContext.resourceRef, h.kind, h.namespace, h.name,
    Bool.and_eq_true, beq_iff_eq, and_assoc]

theorem Kind.toString_injective {kind kind' : Kind} (h : kind.toString = kind'.toString) :
    kind = kind' := by
  cases kind <;> cases kind' <;> first | rfl | exact absurd h (by decide)

/-- The keys of the objects that are managed for every resource, or may be. -/
def IntegrityShieldCR.fixedKeys (self : IntegrityShieldCR) : List Key :=
  let ns := self.namespace
  [.crd self.getShieldConfigCRDName, .crd self.getSignerConfigCRDName,
    .crd self.getResourceSignatureCRDName, .crd self.getResourceSigningProfileCRDName,
    .crd self.getHelmReleaseMetadataCRDName, ⟨.shieldConfig, ns, self.getShieldConfigCRName⟩,
    ⟨.signerConfig, ns, self.getSignerConfigCRName⟩,
    ⟨.secret, ns, self.getWebhookServerTlsSecretName⟩,
    ⟨.serviceAccount, ns, self.getServiceAccountName⟩,
    ⟨.clusterRole, "", self.getClusterRoleName⟩,
    ⟨.clusterRoleBinding, "", self.getClusterRoleBindingName⟩,
    ⟨.role, ns, self.getDryRunRoleName⟩, ⟨.roleBinding, ns, self.getDryRunRoleBindingName⟩,
    ⟨.clusterRole, "", self.getIShieldAdminClusterRoleName⟩,
    ⟨.clusterRoleBinding, "", self.getIShieldAdminClusterRoleBindingName⟩,
    ⟨.role, ns, self.getIShieldAdminRoleName⟩,
    ⟨.roleBinding, ns, self.getIShieldAdminRoleBindingName⟩,
    ⟨.podSecurityPolicy, "", self.getPodSecurityPolicyName⟩,
    ⟨.deployment, ns, self.getIShieldServerDeploymentName⟩,
    ⟨.service, ns, self.getWebhookServiceName⟩]

section

variable [Reflect] {env : Environment} {cr : IntegrityShieldCR} {k : Key}

/-- What holds for the fixed objects and the profiles holds for all managed ones. -/
theorem forall_managedKeys {P : Key → Prop} (hfixed : ∀ k ∈ cr.fixedKeys, P k)
    (hprofile : ∀ prof, some prof ∈ cr.spec.resourceSigningProfiles →
      P ⟨.resourceSigningProfile, cr.namespace, prof.name⟩) : ∀ k ∈ managedKeys env cr, P k := by
  simp only [IntegrityShieldCR.fixedKeys, List.forall_mem_cons, List.not_mem_nil, false_implies,
    implies_true, and_true] at hfixed
  obtain ⟨hshieldCRD, hsignerCRD, hsignatureCRD, hprofileCRD, hhelmCRD, hshield, hsigner, hsecret,
    haccount, hclusterRole, hclusterRoleBinding, hrole, hroleBinding, hadminClusterRole,
    hadminClusterRoleBinding, hadminRole, hadminRoleBinding, hpolicy, hdeployment, hservice⟩ :=
    hfixed
  have hstages : ∀ stage ∈ stages env cr, ∀ k ∈ stage.1, P k := by
    unfold stages
    simp only [List.forall_mem_append, List.forall_mem_cons, List.forall_mem_map,
      List.not_mem_nil, false_implies, implies_true, and_true]
    refine ⟨⟨⟨⟨⟨trivial, hshieldCRD, hsignerCRD, hsignatureCRD, hprofileCRD, ?_, hshield, hsigner⟩,
      ?_⟩, hsecret, haccount, hclusterRole, hclusterRoleBinding, hrole, hroleBinding⟩, ?_⟩,
      hpolicy, hdeployment, hservice⟩
    · rcases cr.helmEnabled with f | (_ | _)
      · exact List.forall_mem_nil _
      · exact List.forall_mem_nil _
      · exact List.forall_mem_singleton.2 hhelmCRD
    · rintro (_ | prof) hprof
      · exact List.forall_mem_nil _
      · exact List.forall_mem_singleton.2 (hprofile prof hprof)
    · split
      · exact List.forall_mem_nil _
      · simp only [List.forall_mem_cons, List.not_mem_nil, false_implies, implies_true, and_true]
        exact ⟨hadminClusterRole, hadminClusterRoleBinding, hadminRole, hadminRoleBinding⟩
  intro k hk
  obtain ⟨stage, hstage, hk⟩ := List.mem_flatMap.1 hk
  exact hstages stage hstage k hk

/-- The managed objects are in the namespace of the resource, or in none. -/
theorem namespace_of_mem_managedKeys : ∀ k ∈ managedKeys env cr,
    k.namespace = if k.kind.isClusterScoped then "" else cr.namespace := by
  refine forall_managedKeys ?_ fun prof _ => rfl
  simp only [IntegrityShieldCR.fixedKeys, List.forall_mem_cons, List.not_mem_nil, false_implies,
    implies_true, and_true]
  exact ⟨rfl, rfl, rfl, rfl, rfl, rfl, rfl, rfl, rfl, rfl, rfl, rfl, rfl, rfl, rfl, rfl, rfl, rfl,
    rfl, rfl⟩

/-- The managed objects of the guarded kinds are listed. -/
theorem ref_mem_serverResourceList {refs : List ResourceRef}
    (hrefs : cr.serverResourceList = .ok refs) : ∀ k ∈ managedKeys env cr,
    k.kind.isUnguarded = false → k.ref ∈ refs := by
  obtain ⟨profiles, hprofiles, h⟩ := Go.bind_eq_ok.1 hrefs
  obtain rfl := Except.ok.inj h
  refine forall_managedKeys (fun k hk hguarded => List.mem_append_left _ ?_) fun prof hprof _ =>
    List.mem_append_right _ ?_
  · revert k
    simp only [IntegrityShieldCR.fixedKeys, List.forall_mem_cons, List.not_mem_nil,
      false_implies, implies_true, and_true]
    simp [Kind.isUnguarded, IntegrityShieldCR.fixedResourceList, Key.ref]
  · rw [eq_map_some_of_mapM_deref hprofiles] at hprof
    obtain ⟨_, hmem, heq⟩ := List.mem_map.1 hprof
    obtain rfl := Option.some.inj heq
    exact List.mem_map_of_mem hmem

omit [Reflect] in
/-- Of the other kinds only the pod security policy is listed, with a namespace. -/
theorem serverResourceList_unguarded {refs : List ResourceRef}
    (hrefs : cr.serverResourceList = .ok refs) : ∀ refi ∈ refs, ∀ kind : Kind,
    refi.kind = kind.toString → kind.isUnguarded = true →
      kind = .podSecurityPolicy ∧ refi.namespace = cr.namespace := by
  obtain ⟨profiles, hprofiles, h⟩ := Go.bind_eq_ok.1 hrefs
  obtain rfl := Except.ok.inj h
  have hguarded : ∀ (listed : Kind) (name ns : String), listed.isUnguarded = false →
      ∀ kind : Kind, (resourceRef listed.toString name ns).kind = kind.toString →
        kind.isUnguarded = true → kind = .podSecurityPolicy ∧
          (resourceRef listed.toString name ns).namespace = cr.namespace := by
    intro listed name ns hlisted kind heq hkind
    obtain rfl := Kind.toString_injective heq
    rw [hlisted] at hkind
    cases hkind
  refine List.forall_mem_append.2 ⟨?_, fun refi hrefi => ?_⟩
  · simp only [IntegrityShieldCR.fixedResourceList, List.forall_mem_cons, List.not_mem_nil,
      false_implies, implies_true, and_true]
    refine ⟨hguarded _ _ _ rfl, hguarded _ _ _ rfl, hguarded _ _ _ rfl, hguarded _ _ _ rfl,
      hguarded _ _ _ rfl, hguarded _ _ _ rfl, hguarded _ _ _ rfl, hguarded _ _ _ rfl,
      hguarded _ _ _ rfl, hguarded _ _ _ rfl, hguarded _ _ _ rfl, hguarded _ _ _ rfl,
      hguarded _ _ _ rfl, hguarded _ _ _ rfl, hguarded _ _ _ rfl, hguarded _ _ _ rfl,
      hguarded _ _ _ rfl, hguarded _ _ _ rfl, fun kind heq _ => ⟨?_, rfl⟩,
      hguarded _ _ _ rfl⟩
    have heq : Kind.podSecurityPolicy.toString = kind.toString := heq
    exact (Kind.toString_injective heq).symm
  · obtain ⟨prof, _, rfl⟩ := List.mem_map.1 hrefi
    exact hguarded _ _ _ rfl

/-! ## The configuration -/

omit [Reflect] in
/-- What the built configuration says about the shield's own objects. -/
theorem buildShieldConfigForIShield_eq_ok {object : Object .shieldConfig}
    {config : OperatorShieldConfig} (h : buildShieldConfigForIShield env cr = .ok object)
    (hconfig : object.content = some config) :
    ∃ refs operatorSA, cr.serverResourceList = .ok refs ∧
      env.getOperatorServiceAccount = .ok operatorSA ∧
      config.iShieldResourceCondition = some {
        operatorResources := (cr.operatorResourceList env).map some
        serverResources := refs.map some
        operatorServiceAccount := operatorSA } := by
  obtain ⟨shieldConfig, _, h⟩ := Go.bind_eq_ok.1 h
  obtain ⟨operatorSA, hsa, h⟩ := Go.bind_eq_ok.1 h
  obtain ⟨refs, hrefs, h⟩ := Go.bind_eq_ok.1 h
  obtain ⟨commonProfile, _, h⟩ := Go.bind_eq_ok.1 h
  obtain rfl := Except.ok.inj h
  obtain rfl := Option.some.inj hconfig
  exact ⟨refs, operatorSA, hrefs, hsa, rfl⟩

section Recognised

variable {object : Object .shieldConfig} {config : OperatorShieldConfig} {reqc : ReqContext}
  (hbuild : buildShieldConfigForIShield env cr = .ok object)
  (hconfig : object.content = some config) (habout : About reqc k)
include hbuild hconfig habout

omit [Reflect] in
theorem operatorResource_iff : OperatorResource config.toShieldConfig reqc ↔
    ∃ refi ∈ cr.operatorResourceList env,
      refi.name = k.name ∧ refi.namespace = k.namespace ∧ refi.kind = k.kind.toString := by
  obtain ⟨refs, operatorSA, _, _, hcondition⟩ := buildShieldConfigForIShield_eq_ok hbuild hconfig
  simp only [OperatorResource, hcondition, Option.some.injEq, exists_eq_left',
    IShieldResourceCondition.isOperatorResource, isListedResource_map_some, Except.ok.injEq,
    List.any_eq_true, equalsWithoutVersionCheck_about habout]

omit [Reflect] in
theorem serverResource_iff {refs : List ResourceRef} (hrefs : cr.serverResourceList = .ok refs) :
    ServerResource config.toShieldConfig reqc ↔
      ∃ refi ∈ refs,
        refi.name = k.name ∧ refi.namespace = k.namespace ∧ refi.kind = k.kind.toString := by
  obtain ⟨refs', operatorSA, hrefs', _, hcondition⟩ :=
    buildShieldConfigForIShield_eq_ok hbuild hconfig
  obtain rfl := Except.ok.inj (hrefs.symm.trans hrefs')
  simp only [ServerResource, hcondition, Option.some.injEq, exists_eq_left',
    IShieldResourceCondition.isServerResource, isListedResource_map_some, Except.ok.injEq,
    List.any_eq_true, equalsWithoutVersionCheck_about habout]

omit [Reflect] in
/-- The kinds of the objects that are listed for the operator. -/
theorem kind_of_operatorResource (hkind : cr.kind = Kind.integrityShield.toString)
    (h : OperatorResource config.toShieldConfig reqc) :
    k = .crd cr.getIntegrityShieldCRDName ∨
      k = ⟨.deployment, env.podNamespace, env.opDeployName⟩ ∨ k = cr.key := by
  obtain ⟨refi, hrefi, hname, hns, heq⟩ := (operatorResource_iff hbuild hconfig habout).1 h
  obtain ⟨kind, ns, name⟩ := k
  simp only [IntegrityShieldCR.operatorResourceList, List.mem_cons, List.not_mem_nil,
    or_false] at hrefi
  rcases hrefi with rfl | rfl | rfl
  · have heq : Kind.customResourceDefinition.toString = kind.toString := heq
    obtain rfl := Kind.toString_injective heq
    exact Or.inl (by rw [← show _ = name from hname, ← show _ = ns from hns]; rfl)
  · have heq : Kind.deployment.toString = kind.toString := heq
    obtain rfl := Kind.toString_injective heq
    exact Or.inr (Or.inl (by rw [← show _ = name from hname, ← show _ = ns from hns]; rfl))
  · have heq : Kind.integrityShield.toString = kind.toString := hkind.symm.trans heq
    obtain rfl := Kind.toString_injective heq
    exact Or.inr (Or.inr (by rw [← show _ = name from hname, ← show _ = ns from hns]; rfl))

theorem serverResource_of_managed (hk : k ∈ managedKeys env cr)
    (hguarded : k.kind.isUnguarded = false) : ServerResource config.toShieldConfig reqc := by
  obtain ⟨refs, _, hrefs, _⟩ := buildShieldConfigForIShield_eq_ok hbuild hconfig
  exact (serverResource_iff hbuild hconfig habout hrefs).2
    ⟨k.ref, ref_mem_serverResourceList hrefs k hk hguarded, rfl, rfl, rfl⟩

omit [Reflect] habout in
theorem operatorUser_iff {operatorSA : String}
    (hsa : env.getOperatorServiceAccount = .ok operatorSA) :
    OperatorUser config.toShieldConfig reqc ↔ reqc.userName = operatorSA := by
  obtain ⟨_, _, _, hsa', hcondition⟩ := buildShieldConfigForIShield_eq_ok hbuild hconfig
  obtain rfl := Except.ok.inj (hsa.symm.trans hsa')
  have hcheck : checkIfIShieldOperatorRequest reqc config.toShieldConfig =
      .ok (exactMatch operatorSA reqc.userName) := by
    rw [checkIfIShieldOperatorRequest, hcondition]
    rfl
  rw [OperatorUser, hcheck, Except.ok.injEq, exactMatch, beq_iff_eq, eq_comm]

end Recognised

theorem integrityShieldCRD_ne : ∀ k ∈ managedKeys env cr,
    k ≠ .crd cr.getIntegrityShieldCRDName := by
  refine forall_managedKeys ?_ fun prof _ h => by cases h
  simp [IntegrityShieldCR.fixedKeys, IntegrityShieldCR.getIntegrityShieldCRDName,
    IntegrityShieldCR.getShieldConfigCRDName, IntegrityShieldCR.getSignerConfigCRDName,
    IntegrityShieldCR.getResourceSignatureCRDName,
    IntegrityShieldCR.getResourceSigningProfileCRDName,
    IntegrityShieldCR.getHelmReleaseMetadataCRDName]

/-- **Which managed objects the server takes for the shield's own.**  A request about a managed
object or the webhook is recognised by a server with the configuration that the operator builds
if and only if the object is not a service, a pod security policy or the webhook. -/
theorem managed_isShieldResource_iff (env : Environment) (cr : IntegrityShieldCR)
    (object : Object .shieldConfig) (config : OperatorShieldConfig) (reqc : ReqContext) (k : Key)
    (hbuild : buildShieldConfigForIShield env cr = .ok object)
    (hconfig : object.content = some config) (hkind : cr.kind = Kind.integrityShield.toString)
    (hns : cr.namespace ≠ "") (hk : k ∈ managedKeys env cr ∨ k = cr.webhookKey)
    (habout : About reqc k) :
    IShieldResource config.toShieldConfig reqc ↔ k.kind.isUnguarded = false := by
  obtain ⟨refs, _, hrefs, _⟩ := buildShieldConfigForIShield_eq_ok hbuild hconfig
  refine ⟨?_, fun hguarded => Or.inr ?_⟩
  · rintro (hoperator | hserver)
    · obtain rfl | rfl | rfl := kind_of_operatorResource hbuild hconfig habout hkind hoperator
      · rfl
      · rfl
      · rfl
    · obtain ⟨refi, hrefi, _, hnamespace, heq⟩ :=
        (serverResource_iff hbuild hconfig habout hrefs).1 hserver
      by_contra hunguarded
      obtain ⟨hpolicy, hrefns⟩ := serverResourceList_unguarded hrefs refi hrefi k.kind heq
        (Bool.eq_true_of_not_eq_false hunguarded)
      -- the policy is in no namespace, but it is listed in one
      rcases hk with hk | rfl
      · have hempty := namespace_of_mem_managedKeys k hk
        rw [hpolicy] at hempty
        exact hns (hrefns.symm.trans (hnamespace.trans hempty))
      · cases hpolicy
  · rcases hk with hk | rfl
    · exact serverResource_of_managed hbuild hconfig habout hk hguarded
    · cases hguarded

/-- **Who may change a managed object.**  A server with the configuration that the operator
builds is asked about a managed object of a guarded kind, other than the operator's own
deployment.  If the request is in scope and well formed, it is let through exactly in detect
mode, under break glass, or if it comes from the operator, the server, the garbage collector or
a service account of the cluster. -/
theorem managed_allowed_iff [Outside] (env : Environment) (cr : IntegrityShieldCR)
    (object : Object .shieldConfig) (config : OperatorShieldConfig) (operatorSA : String)
    (k : Key) (req : AdmissionRequest) (reqc : ReqContext) (world : World)
    (r : Handler.RunResult) (hbuild : buildShieldConfigForIShield env cr = .ok object)
    (hconfig : object.content = some config) (hkind : cr.kind = Kind.integrityShield.toString)
    (hsa : env.getOperatorServiceAccount = .ok operatorSA) (hk : k ∈ managedKeys env cr)
    (hguarded : k.kind.isUnguarded = false)
    (hown : k ≠ ⟨.deployment, env.podNamespace, env.opDeployName⟩)
    (hreqc : newReqContext req = .ok reqc) (habout : About reqc k)
    (hscope : ¬OutOfScope config.toShieldConfig reqc (scopeData reqc config.toShieldConfig
      world.scope (RunData.init config.toShieldConfig world.init)))
    (hformat : WellFormatted config.toShieldConfig reqc)
    (hrun : Handler.run config.toShieldConfig req world = .ok r) :
    r.response.allowed = true ↔
      config.mode = .detect ∨ checkIfBreakGlassEnabled reqc r.final.data.signerConfig = .ok true ∨
      reqc.userName = operatorSA ∨
      checkIfIShieldServerRequest reqc config.toShieldConfig = true ∨
      checkIfGarbageCollectorRequest reqc = true ∨
      checkIfSpecialServiceAccountRequest reqc = true := by
  have hserver := serverResource_of_managed hbuild hconfig habout hk hguarded
  have hoperator : ¬OperatorResource config.toShieldConfig reqc := by
    intro hoperator
    obtain rfl | rfl | rfl := kind_of_operatorResource hbuild hconfig habout hkind hoperator
    · exact integrityShieldCRD_ne _ hk rfl
    · exact hown rfl
    · exact Bool.false_ne_true (isManaged_of_mem_managedKeys _ hk)
  have hpermitted : PermittedUser config.toShieldConfig reqc ↔
      ServerResourceUser config.toShieldConfig reqc :=
    ⟨fun h => (h.resolve_left fun h => hoperator h.1).2, fun h => Or.inr ⟨hserver, h⟩⟩
  have hadmitted : Admitted config.toShieldConfig reqc world
      (RunData.init config.toShieldConfig world.init) ↔
        PermittedUser config.toShieldConfig reqc := by
    have hshield : IShieldResource config.toShieldConfig reqc := Or.inr hserver
    simp only [Admitted, hscope, hformat, hshield, false_or, true_and, not_true_eq_false,
      false_and, or_false]
  have huser : OperatorUser config.toShieldConfig reqc ↔ reqc.userName = operatorSA :=
    operatorUser_iff hbuild hconfig hsa
  rw [(run_response hreqc hrun).2, hadmitted, hpermitted, ServerResourceUser, huser]

end

/-! A resource, the environment of an operator with an account, and a request of that operator. -/

def guardedCR : IntegrityShieldCR where
  kind := "IntegrityShield"
  name := "shield"
  «namespace» := "shield-ns"
  spec := {
    shieldConfig := some {
      log := some { consoleLog := some {}, contextLog := some {} }
      mode := .enforce
      inScopeNamespaceSelector := some { include_ := ["shield-ns"] } }
    webhookServerTlsSecretName := "shield-tls" }

def accountEnvironment : Environment where
  saToken := some "header.claims.signature"
  decodeClaims _ := some (GoMap.writes ∅ [("sub", "operator")])

/-- The configuration that is built for the resource. -/
def guardedOwnConfig : OperatorShieldConfig :=
  ((buildShieldConfigForIShield accountEnvironment guardedCR).toOption.bind
    Object.content).getD {}

def operatorUpdatesSecret : AdmissionRequest where
  value := fun path => List.lookup path [("name", "shield-tls"), ("namespace", "shield-ns"),
    ("kind.version", "v1"), ("kind.kind", "Secret"), ("operation", "UPDATE"),
    ("userInfo.username", "operator")]

theorem build_guardedOwnConfig : buildShieldConfigForIShield accountEnvironment guardedCR =
    .ok ⟨"", some guardedOwnConfig⟩ := rfl

theorem managed_isShieldResource_tls :
    letI := Reflect.never
    IShieldResource guardedOwnConfig.toShieldConfig
      { kind := "Secret", «namespace» := "shield-ns", name := "shield-tls" } := by
  let _ := Reflect.never
  exact (managed_isShieldResource_iff accountEnvironment guardedCR _ guardedOwnConfig _
    ⟨.secret, "shield-ns", "shield-tls"⟩ build_guardedOwnConfig rfl rfl (by decide)
    (Or.inl (by decide)) ⟨rfl, rfl, rfl⟩).2 rfl

theorem managed_allowed_operator :
    letI := Reflect.never
    letI := Outside.silent
    ∃ r, Handler.run guardedOwnConfig.toShieldConfig operatorUpdatesSecret (guardedWorld []) =
        .ok r ∧
      r.response.allowed = true := by
  let _ := Reflect.never
  let _ := Outside.silent
  obtain ⟨r, hr⟩ : ∃ r, Handler.run guardedOwnConfig.toShieldConfig operatorUpdatesSecret
      (guardedWorld []) = .ok r := Go.exists_of_toOption_isSome (by decide +kernel)
  obtain ⟨reqc, hreqc, hfields⟩ : ∃ reqc, newReqContext operatorUpdatesSecret = .ok reqc ∧
      (reqc.kind, reqc.namespace, reqc.name, reqc.userName, reqc.dryRun,
        checkIfInScopeNamespace (getRequestNamespaceFromReqContext reqc)
          guardedOwnConfig.toShieldConfig) =
        ("Secret", "shield-ns", "shield-tls", "operator", false, true) :=
    Go.exists_of_toOption_map (by decide +kernel)
  simp only [Prod.mk.injEq] at hfields
  obtain ⟨hkind, hnamespace, hname, huser, hdryRun, hinScope⟩ := hfields
  have hscope : ¬OutOfScope guardedOwnConfig.toShieldConfig reqc (scopeData reqc
      guardedOwnConfig.toShieldConfig (guardedWorld []).scope
      (RunData.init guardedOwnConfig.toShieldConfig (guardedWorld []).init)) := by
    rintro (hunmonitored | hdry | ⟨_, hignore, _⟩)
    · rw [hunmonitored.2.1] at hinScope
      cases hinScope
    · rw [hdryRun] at hdry
      cases hdry
    · cases hignore
  have hformat : WellFormatted guardedOwnConfig.toShieldConfig reqc := by
    refine ⟨"", ?_⟩
    simp [validateResource, hkind, profileCustomResourceKind, signatureCustomResourceKind,
      shieldConfigCustomResourceAPIVersion, signerConfigCustomResourceKind,
      helmReleaseMetadataCustomResourceAPIVersion, pure, Except.pure]
  exact ⟨r, hr, (managed_allowed_iff accountEnvironment guardedCR _ guardedOwnConfig "operator"
    ⟨.secret, "shield-ns", "shield-tls"⟩ operatorUpdatesSecret reqc (guardedWorld []) r
    build_guardedOwnConfig rfl rfl rfl (by decide) rfl (by decide) hreqc
    ⟨hkind, hnamespace, hname⟩ hscope hformat hr).2 (Or.inr (Or.inr (Or.inl huser)))⟩

end Operator
end IntegrityShield
