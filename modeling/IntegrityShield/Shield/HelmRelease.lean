/-
# Helm releases in the signature check

`HelmVerifier.Verify` of `shield/pkg/shield/signVerifier.go` and the plugin behind it, in
`ConcreteSignatureEvaluator.Eval` of `shield/pkg/shield/sign.go`.

With the plugin as it is modelled (`RunsPlugin`), a release passes the verifier if its manifest and
its values are those of a metadata whose chart is signed; its own chart is not looked at
(`verify_of_signedMetadata`).

No release passes the evaluation, though (`allow_eq_false_of_helm`): the verifier reports no key
path under which it has verified the chart, and a policy is matched by the key paths reported.
-/

import IntegrityShield.Helm.Release
import IntegrityShield.Shield.Sign

namespace IntegrityShield
namespace Shield

open Common Apis Mapnode Helm

section Plugin

variable {Chart : Type} [ReleaseDecoder Chart]

/-- The helm functions are those of the plugin, with a helm library and some files. -/
structure RunsPlugin [Outside] (lib : Library Chart) (files : Files) : Prop where
  matchReleaseSecret : ∀ rls hrm matched after,
    Helm.matchReleaseSecret lib rls hrm files = .ok (matched, after) →
      Outside.helmMatchReleaseSecret rls hrm = matched
  verifyChartAndProv : ∀ chart prov keyPathList outcome after,
    Helm.verifyChartAndProv lib chart prov keyPathList files = (.ok outcome, after) →
      Outside.helmVerifyChartAndProv chart prov keyPathList = outcome

/-- Libraries with the plugin in the place of their helm functions; where it faults, they answer
that nothing matches and nothing is verified. -/
@[reducible] def Outside.withPlugin (outside : Outside) (lib : Library Chart) (files : Files) :
    Outside :=
  { outside with
    helmMatchReleaseSecret := fun rls hrm =>
      ((Helm.matchReleaseSecret lib rls hrm files).toOption.map Prod.fst).getD false
    helmVerifyChartAndProv := fun chart prov keyPathList =>
      ((Helm.verifyChartAndProv lib chart prov keyPathList files).1.toOption).getD { ok := false } }

theorem runsPlugin_withPlugin (outside : Outside) (lib : Library Chart) (files : Files) :
    letI := outside.withPlugin lib files
    RunsPlugin lib files := by
  let _ := outside.withPlugin lib files
  constructor
  · intro rls hrm matched after h
    exact congrArg (fun r : Go (Bool × Files) => (r.toOption.map Prod.fst).getD false) h
  · intro chart prov keyPathList outcome after h
    exact congrArg (fun r : Go HelmOutcome × Files => r.1.toOption.getD { ok := false }) h

/-- **A release is verified by its metadata**, whatever its own chart is. -/
theorem HelmVerifier.verify_of_signedMetadata [Outside] {lib : Library Chart} {files : Files}
    (hruns : RunsPlugin lib files) (self : HelmVerifier) {sig : GeneralSignature}
    {release : Release Chart} {metadata : Node}
    (hdecodes : Decodes (sig.datum "releaseSecret") (sig.datum "helmReleaseMetadata") release
      metadata)
    (hmanifest : SameManifest release metadata) (hloads : Loads lib files metadata)
    (hconfig : SameConfig release metadata) {chart prov : Bytes}
    (hparts : Outside.helmReleaseMetadata (sig.datum "helmReleaseMetadata") =
      .ok (some (chart, prov)))
    {signer : PgpSigner} {after : Files}
    (hsigned : Helm.verifyChartAndProv lib chart prov self.keyPathList files =
      (.ok { ok := true, signer := some signer }, after)) :
    self.verify sig = .ok { result := { signer := some (helmSignerInfo signer) } } := by
  obtain ⟨after', hmatch⟩ := (matchReleaseSecret_true_iff lib _ _ files).2
    ⟨release, metadata, hdecodes, hmanifest, hloads, hconfig⟩
  have hmatched := hruns.matchReleaseSecret _ _ _ _ hmatch
  have hverified := hruns.verifyChartAndProv _ _ _ _ _ hsigned
  rw [HelmVerifier.verify]
  simp only [hmatched, Bool.not_true, Bool.and_false, Bool.false_eq_true, if_false, hparts]
  simp only [Go.deref, Go.ok_bind, hverified]
  rfl

end Plugin

namespace SignatureEvaluator

variable [Outside]

/-- A release with matching metadata whose chart verifies under a candidate key of the namespace,
as a signer that a policy of the namespace accepts with that key. -/
structure SignedRelease (evaluator : SignatureEvaluator) (reqc : ReqContext)
    (resSigList : Option (List (Option ResourceSignature)))
    (signingProfile : ResourceSigningProfile) (signerConfig : SignerConfig)
    (kustPatterns : List KustomizePattern) (sig : GeneralSignature) (chart prov : Bytes)
    (keyPath : String) (signer : PgpSigner) (policy : SignerConfigCondition) (signerName : String)
    (conditions : List SubjectCondition) (sc : SubjectCondition) : Prop where
  hasConfig : evaluator.signerConfig = some signerConfig
  kustomized : signingProfile.kustomize reqc.map = .ok kustPatterns
  found : evaluator.getResourceSignature (signedRef reqc kustPatterns) reqc resSigList =
    .ok (some sig)
  isHelm : sig.signType = .helm
  matched : Outside.helmMatchReleaseSecret (sig.datum "releaseSecret")
    (sig.datum "helmReleaseMetadata") = true
  decoded : Outside.helmReleaseMetadata (sig.datum "helmReleaseMetadata") = .ok (some (chart, prov))
  candidate : keyPath ∈
    signerConfig.getCandidatePubkeys evaluator.config.keyPathList reqc.namespace .pgp
  verified : (Outside.helmVerifyChartAndProv chart prov [keyPath]).ok = true
  identity : (Outside.helmVerifyChartAndProv chart prov [keyPath]).signer = some signer
  policy_mem : policy ∈ signerConfig.policies
  applies : SignerConfig.appliesTo policy reqc.namespace = true
  named : signerName ∈ policy.signers
  conditions_eq : signerConfig.getSignerMap.lookup signerName = some conditions
  condition_mem : sc ∈ conditions
  subject : sc.matchSigner (helmSignerInfo signer) = .ok true
  keyConfig : Strings.contains keyPath ("/" ++ sc.keyConfig ++ "/") = true
  keysLoaded : keyLoadingError
    (signerConfig.getCandidatePubkeys evaluator.config.keyPathList reqc.namespace .pgp)
    (signerConfig.getCandidatePubkeys evaluator.config.keyPathList reqc.namespace .x509) = false

variable (self : SignatureEvaluator) {reqc : ReqContext}
  {resSigList : Option (List (Option ResourceSignature))} {signingProfile : ResourceSigningProfile}

/-- **A helm release is never allowed.** -/
theorem allow_eq_false_of_helm {kustPatterns : List KustomizePattern} {sig : GeneralSignature}
    (hkust : signingProfile.kustomize reqc.map = .ok kustPatterns)
    (hfound : self.getResourceSignature (signedRef reqc kustPatterns) reqc resSigList =
      .ok (some sig))
    (hhelm : sig.signType = .helm) {r : SignatureEvalResult}
    (hr : self.eval reqc resSigList signingProfile = .ok r) : r.allow = false := by
  by_contra hallow
  obtain ⟨_, kustPatterns', sig', _, _, hp, _⟩ := (self.eval_allow_iff reqc resSigList
    signingProfile r).1 ⟨hr, Bool.eq_true_of_not_eq_false hallow⟩
  obtain rfl := Except.ok.inj (hkust.symm.trans hp.kustomized)
  obtain rfl := Option.some.inj (Except.ok.inj (hfound.symm.trans hp.found))
  exact hp.notHelm hhelm

/-- **When a signed release is accepted**: only if it is not a signed release. -/
theorem signedRelease_allowed_iff (signerConfig : SignerConfig)
    (kustPatterns : List KustomizePattern) (sig : GeneralSignature) (chart prov : Bytes)
    (keyPath : String) (signer : PgpSigner) (policy : SignerConfigCondition) (signerName : String)
    (conditions : List SubjectCondition) (sc : SubjectCondition) :
    (self.SignedRelease reqc resSigList signingProfile signerConfig kustPatterns sig chart prov
        keyPath signer policy signerName conditions sc →
      ∃ r, self.eval reqc resSigList signingProfile = .ok r ∧ r.allow = true) ↔
    ¬ self.SignedRelease reqc resSigList signingProfile signerConfig kustPatterns sig chart prov
        keyPath signer policy signerName conditions sc := by
  refine ⟨fun h hsigned => ?_, fun h hsigned => absurd hsigned h⟩
  obtain ⟨r, hr, hallow⟩ := h hsigned
  rw [self.allow_eq_false_of_helm hsigned.kustomized hsigned.found hsigned.isHelm hr] at hallow
  cases hallow

end SignatureEvaluator

/-- Libraries with one release, whose chart is signed by `alice`. -/
@[reducible] def Outside.aliceReleases : Outside :=
  { Outside.silent with
    pgpLoadKeyRing := fun _ => 1
    helmFindReleaseSecret := fun _ _ _ _ => .ok (some "secret")
    helmGetHelmReleaseMetadata := fun _ => (["rls", "hrm"], none)
    helmMatchReleaseSecret := fun _ _ => true
    helmReleaseMetadata := fun _ => .ok (some ("chart", "prov"))
    helmVerifyChartAndProv := fun _ _ keyPathList =>
      if "/k1/pgp/pubring.gpg" ∈ keyPathList then
        { ok := true, signer := some { email := "alice@x", name := "", comment := "" } }
      else { ok := false, reasonFail := "Failed to verify helm chart and its provenance." } }

/-- The evaluator of the two signers, with the plugin for helm. -/
def helmEvaluator : SignatureEvaluator :=
  { twoSignersEvaluator with plugins := GoMap.writes ∅ [("helm", true)] }

/-- The creation of a secret of a release. -/
def releaseCreate : ReqContext where
  operation := "CREATE"
  resourceScope := "Namespaced"
  apiVersion := "v1"
  kind := "Secret"
  «namespace» := "ns"
  name := "sh.helm.release.v1.web.v1"
  rawObject := some "request"

/-- The signature of the release. -/
def releaseSignature : GeneralSignature where
  signType := .helm
  data := GoMap.writes ∅ [("releaseSecret", "rls"), ("helmReleaseMetadata", "hrm")]
  option := GoMap.writes ∅ [("emptyConfig", true), ("matchRequired", true)]

/-- A release that `alice` has signed is denied. -/
theorem eval_alice_release :
    letI := Outside.aliceReleases
    let policy : SignerConfigCondition :=
      { scope := "Namespaced", namespaces := ["ns"], signers := ["alice", "bob"] }
    let sc : SubjectCondition :=
      { name := "alice", keyConfig := "k1", subject := { email := "alice@x" } }
    helmEvaluator.SignedRelease releaseCreate none {} twoSigners [] releaseSignature "chart" "prov"
        "/k1/pgp/pubring.gpg" { email := "alice@x", name := "", comment := "" } policy "alice"
        [sc] sc ∧
      ∃ r, helmEvaluator.eval releaseCreate none {} = .ok r ∧ r.allow = false := by
  intro policy sc
  let _ := Outside.aliceReleases
  constructor
  · exact {
      hasConfig := rfl
      kustomized := rfl
      found := rfl
      isHelm := rfl
      matched := rfl
      decoded := rfl
      candidate := by decide +kernel
      verified := by decide +kernel
      identity := rfl
      policy_mem := List.mem_cons_self
      applies := by decide +kernel
      named := by decide +kernel
      conditions_eq := by decide +kernel
      condition_mem := by decide +kernel
      subject := by decide +kernel
      keyConfig := by decide +kernel
      keysLoaded := by decide +kernel }
  · exact Go.exists_of_toOption_map (by decide +kernel)

end Shield
end IntegrityShield
