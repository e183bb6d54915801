/-
# More key paths, and other orders of them

What the configured key paths do to an answer of `ConcreteSignatureEvaluator.Eval`.
All that is asked of the request itself does not depend on them (`Examined`).  Of
the paths it is asked that they can be tried and loaded (`KeysWork`), and that a
policy accepts the signer they leave with the paths that verify (`Accepts`).  All of
this is about which paths there are, except for the signer that is left: both loops
of `ResourceVerifier.Verify` overwrite it, and an X509 path that does not verify
clears it.

So a further path can take an acceptance back (`eval_append_keys_iff`), and so can
another order of the paths (`eval_perm_keys_iff`).
-/

import IntegrityShield.Shield.Sign

namespace IntegrityShield
namespace Shield

open Common Apis Mapnode

section Check

variable [Outside]

namespace SignatureEvaluator

/-- `Eval` allows a request. -/
def Allows (self : SignatureEvaluator) (reqc : ReqContext)
    (resSigList : Option (List (Option ResourceSignature)))
    (signingProfile : ResourceSigningProfile) : Prop :=
  ∃ r, self.eval reqc resSigList signingProfile = .ok r ∧ r.allow = true

/-- The evaluator with other key paths. -/
def withKeyPaths (self : SignatureEvaluator) (keyPathList : List String) : SignatureEvaluator :=
  { self with config := { self.config with keyPathList := keyPathList } }

/-- What is asked of a request apart from the keys: there is a signature for it,
which is not of a chart, and the document and the scope of that signature are those
of the request. -/
structure Examined (evaluator : SignatureEvaluator) (reqc : ReqContext)
    (resSigList : Option (List (Option ResourceSignature)))
    (signingProfile : ResourceSigningProfile) (signerConfig : SignerConfig)
    (sig : GeneralSignature) : Prop where
  hasConfig : evaluator.signerConfig = some signerConfig
  found : ∃ kustPatterns, signingProfile.kustomize reqc.map = .ok kustPatterns ∧
    evaluator.getResourceSignature (signedRef reqc kustPatterns) reqc resSigList = .ok (some sig)
  notHelm : sig.signType ≠ .helm
  matched : (evaluator.verifier signerConfig reqc).matchDenial sig.sigFrom sig reqc
    signingProfile = .ok none
  inScope : scopeDenial sig.sigFrom sig reqc = .ok none

theorem allows_iff_eval {self : SignatureEvaluator} {reqc : ReqContext}
    {resSigList : Option (List (Option ResourceSignature))}
    {signingProfile : ResourceSigningProfile} :
    self.Allows reqc resSigList signingProfile ↔
      (self.eval reqc resSigList signingProfile).toOption.any (fun r => r.allow) = true := by
  rw [Allows]
  cases self.eval reqc resSigList signingProfile with
  | error e => simp [Except.toOption]
  | ok r => simp [Except.toOption]

section Keys

variable (self : SignatureEvaluator) (reqc : ReqContext) (signerConfig : SignerConfig)
  (sig : GeneralSignature)

/-- No candidate key errs, and one can be loaded, if there is any. -/
def KeysWork : Prop :=
  (self.verifier signerConfig reqc).KeysRun sig ∧
    keyLoadingError (self.verifier signerConfig reqc).pgpKeyPathList
      (self.verifier signerConfig reqc).x509KeyPathList = false

/-- The signer `Verify` reports. -/
def kept : Option SignerInfo := (self.verifier signerConfig reqc).keptSigner sig

/-- There is a signer, and a policy accepts it with the paths that verify. -/
def Accepts (signer : Option SignerInfo) : Prop :=
  ∃ s policy, signer = some s ∧ signerConfig.matchConfig reqc.namespace s
    ((self.verifier signerConfig reqc).verifiedPaths sig) = .ok (some policy)

end Keys

section Request

variable {self : SignatureEvaluator} {reqc : ReqContext}
  {resSigList : Option (List (Option ResourceSignature))}
  {signingProfile : ResourceSigningProfile} {signerConfig : SignerConfig} {sig : GeneralSignature}

theorem allows_iff : self.Allows reqc resSigList signingProfile ↔
    ∃ signerConfig sig, self.Examined reqc resSigList signingProfile signerConfig sig ∧
      self.KeysWork reqc signerConfig sig ∧
      self.Accepts reqc signerConfig sig (self.kept reqc signerConfig sig) := by
  constructor
  · rintro ⟨r, hr⟩
    obtain ⟨signerConfig, kustPatterns, sig, signer, policy, hp, _⟩ :=
      (self.eval_allow_iff reqc resSigList signingProfile r).1 hr
    exact ⟨signerConfig, sig, ⟨hp.hasConfig, ⟨kustPatterns, hp.kustomized, hp.found⟩, hp.notHelm,
      hp.matched, hp.inScope⟩, ⟨hp.keysRun, hp.keysLoaded⟩, signer, policy, hp.kept, hp.accepted⟩
  · rintro ⟨signerConfig, sig, hex, ⟨hruns, hloaded⟩, signer, policy, hkept, haccepted⟩
    obtain ⟨kustPatterns, hkust, hfound⟩ := hex.found
    have hp : self.Passes reqc resSigList signingProfile signerConfig kustPatterns sig signer
        policy :=
      ⟨hex.hasConfig, hkust, hfound, hex.notHelm, hex.matched, hex.inScope, hruns, hloaded, hkept,
        haccepted⟩
    exact ⟨_, (self.eval_allow_iff reqc resSigList signingProfile _).2
      ⟨signerConfig, kustPatterns, sig, signer, policy, hp, rfl⟩⟩

/-- The paths play no part in it. -/
theorem Examined.withKeyPaths
    (h : self.Examined reqc resSigList signingProfile signerConfig sig)
    (keyPathList : List String) :
    (self.withKeyPaths keyPathList).Examined reqc resSigList signingProfile signerConfig sig :=
  ⟨h.hasConfig, h.found, h.notHelm, h.matched, h.inScope⟩

theorem Examined.unique {signerConfig' : SignerConfig} {sig' : GeneralSignature}
    (h : self.Examined reqc resSigList signingProfile signerConfig sig)
    (h' : self.Examined reqc resSigList signingProfile signerConfig' sig') :
    signerConfig = signerConfig' ∧ sig = sig' := by
  obtain ⟨kustPatterns, hkust, hfound⟩ := h.found
  obtain ⟨kustPatterns', hkust', hfound'⟩ := h'.found
  obtain rfl := Except.ok.inj (hkust.symm.trans hkust')
  exact ⟨Option.some.inj (h.hasConfig.symm.trans h'.hasConfig),
    Option.some.inj (Except.ok.inj (hfound.symm.trans hfound'))⟩

/-- Once a request has been examined only the keys are left. -/
theorem Examined.allows_iff (h : self.Examined reqc resSigList signingProfile signerConfig sig) :
    self.Allows reqc resSigList signingProfile ↔ self.KeysWork reqc signerConfig sig ∧
      self.Accepts reqc signerConfig sig (self.kept reqc signerConfig sig) := by
  rw [SignatureEvaluator.allows_iff]
  constructor
  · rintro ⟨signerConfig', sig', h', hkeys⟩
    obtain ⟨rfl, rfl⟩ := h.unique h'
    exact hkeys
  · exact fun hkeys => ⟨signerConfig, sig, h, hkeys⟩

end Request

section Paths

variable (self : SignatureEvaluator) (reqc : ReqContext) (signerConfig : SignerConfig)
  (sig : GeneralSignature)

/-- The kind of a candidate key path of a request. -/
def pathKind (keyPath : String) : Option SignerConfig.KeyKind :=
  SignerConfig.keyKind (signerConfig.candidateKeyConfigs reqc.namespace) keyPath

theorem keysRun_iff : (self.verifier signerConfig reqc).KeysRun sig ↔
    ∀ keyPath ∈ self.config.keyPathList,
      (pathKind reqc signerConfig keyPath = some .pgp →
        PgpRuns (sig.datum "message") (sig.datum "signature") [keyPath]) ∧
      (pathKind reqc signerConfig keyPath = some .x509 →
        ∀ certificate ∈ sig.data.lookup "certificate",
          X509Runs (sig.datum "message") (sig.datum "signature") certificate [keyPath]) := by
  simp only [ResourceVerifier.KeysRun, verifier, PgpRuns, X509Runs,
    SignerConfig.getCandidatePubkeys, List.mem_filter, beq_iff_eq, pathKind, List.mem_singleton,
    forall_eq]
  constructor
  · rintro ⟨hpgp, hx509⟩ keyPath hmem
    exact ⟨fun hkind => hpgp keyPath ⟨hmem, hkind⟩,
      fun hkind certificate hcert => hx509 certificate hcert keyPath ⟨hmem, hkind⟩⟩
  · intro h
    exact ⟨fun keyPath hmem => (h keyPath hmem.1).1 hmem.2,
      fun certificate hcert keyPath hmem => (h keyPath hmem.1).2 hmem.2 certificate hcert⟩

theorem mem_verifiedPaths_iff (keyPath : String) :
    keyPath ∈ (self.verifier signerConfig reqc).verifiedPaths sig ↔
      keyPath ∈ self.config.keyPathList ∧
      ((pathKind reqc signerConfig keyPath = some .pgp ∧
        (pgpSigner (sig.datum "message") (sig.datum "signature") keyPath).isSome = true) ∨
      (pathKind reqc signerConfig keyPath = some .x509 ∧
        ∃ certificate ∈ sig.data.lookup "certificate",
          (x509Signer (sig.datum "message") (sig.datum "signature") certificate keyPath).isSome =
            true)) := by
  unfold ResourceVerifier.verifiedPaths
  cases sig.data.lookup "certificate" with
  | none =>
      simp only [verifier, SignerConfig.getCandidatePubkeys, pathKind, List.append_nil,
        List.mem_filter, beq_iff_eq, Option.not_mem_none, false_and, exists_false, and_false,
        or_false, and_assoc]
  | some certificate =>
      simp only [verifier, SignerConfig.getCandidatePubkeys, pathKind, List.mem_append,
        List.mem_filter, beq_iff_eq, Option.mem_some_iff, exists_eq_left', and_assoc, and_or_left]

/-- A candidate can be loaded. -/
def PathLoads (keyPath : String) : Prop :=
  (pathKind reqc signerConfig keyPath = some .pgp ∧ 0 < Outside.pgpLoadKeyRing keyPath) ∨
    (pathKind reqc signerConfig keyPath = some .x509 ∧ 0 < Outside.x509LoadCertDir keyPath)

theorem keyLoadingError_eq_false_iff :
    keyLoadingError (self.verifier signerConfig reqc).pgpKeyPathList
        (self.verifier signerConfig reqc).x509KeyPathList = false ↔
      (∀ keyPath ∈ self.config.keyPathList, pathKind reqc signerConfig keyPath = none) ∨
        ∃ keyPath ∈ self.config.keyPathList, PathLoads reqc signerConfig keyPath := by
  have hempty : (self.verifier signerConfig reqc).pgpKeyPathList = [] ∧
      (self.verifier signerConfig reqc).x509KeyPathList = [] ↔
      ∀ keyPath ∈ self.config.keyPathList, pathKind reqc signerConfig keyPath = none := by
    simp only [verifier, SignerConfig.getCandidatePubkeys, List.filter_eq_nil_iff, beq_iff_eq]
    constructor
    · rintro ⟨hpgp, hx509⟩ keyPath hmem
      cases hkind : pathKind reqc signerConfig keyPath with
      | none => rfl
      | some kind =>
          cases kind with
          | pgp => exact absurd hkind (hpgp keyPath hmem)
          | x509 => exact absurd hkind (hx509 keyPath hmem)
    · intro h
      constructor
      all_goals
        intro keyPath hmem hkind
        cases (h keyPath hmem).symm.trans hkind
  have hloads : ((self.verifier signerConfig reqc).pgpKeyPathList.any
        (fun keyPath => decide (0 < Outside.pgpLoadKeyRing keyPath)) ||
      (self.verifier signerConfig reqc).x509KeyPathList.any fun certDir =>
        decide (0 < Outside.x509LoadCertDir certDir)) = true ↔
      ∃ keyPath ∈ self.config.keyPathList, PathLoads reqc signerConfig keyPath := by
    simp only [verifier, SignerConfig.getCandidatePubkeys, Bool.or_eq_true, List.any_eq_true,
      List.mem_filter, beq_iff_eq, decide_eq_true_eq, PathLoads, pathKind, and_or_left, exists_or,
      and_assoc]
  rw [← hempty, ← hloads, keyLoadingError, Bool.and_eq_false_iff, Bool.not_eq_false',
    decide_eq_false_iff_not, Nat.pos_iff_ne_zero, not_not, Nat.add_eq_zero_iff,
    List.length_eq_zero_iff, List.length_eq_zero_iff]

variable {self reqc signerConfig sig}

/-- With more paths, more of them verify. -/
theorem verifiedPaths_subset {keyPathList : List String}
    (hsub : self.config.keyPathList ⊆ keyPathList) :
    (self.verifier signerConfig reqc).verifiedPaths sig ⊆
      ((self.withKeyPaths keyPathList).verifier signerConfig reqc).verifiedPaths sig := by
  intro keyPath hmem
  obtain ⟨hmounted, hverifies⟩ := (self.mem_verifiedPaths_iff reqc signerConfig sig keyPath).1 hmem
  exact ((self.withKeyPaths keyPathList).mem_verifiedPaths_iff reqc signerConfig sig keyPath).2
    ⟨hsub hmounted, hverifies⟩

/-- A signer that is accepted is so with more paths. -/
theorem Accepts.mono {signer : Option SignerInfo} {keyPathList : List String}
    (h : self.Accepts reqc signerConfig sig signer)
    (hsub : self.config.keyPathList ⊆ keyPathList) :
    (self.withKeyPaths keyPathList).Accepts reqc signerConfig sig signer := by
  obtain ⟨s, policy, hs, hpolicy⟩ := h
  obtain ⟨policy', hpolicy'⟩ := SignerConfig.matchConfig_mono (verifiedPaths_subset hsub) hpolicy
  exact ⟨s, policy', hs, hpolicy'⟩

/-- An accepted signer comes with a candidate, so one has been loaded. -/
theorem Accepts.exists_loads {signer : Option SignerInfo}
    (h : self.Accepts reqc signerConfig sig signer) (hkeys : self.KeysWork reqc signerConfig sig) :
    ∃ keyPath ∈ self.config.keyPathList, PathLoads reqc signerConfig keyPath := by
  obtain ⟨s, policy, _, hpolicy⟩ := h
  obtain ⟨_, _, _, _, _, _, _, _, _, keyPath, hverified, _⟩ :=
    SignerConfig.matchConfig_eq_some hpolicy
  obtain ⟨hmem, hkind⟩ := (self.mem_verifiedPaths_iff reqc signerConfig sig keyPath).1 hverified
  rcases (self.keyLoadingError_eq_false_iff reqc signerConfig).1 hkeys.2 with hnone | hloads
  · rcases hkind with ⟨hkind, _⟩ | ⟨hkind, _⟩
    · cases (hnone keyPath hmem).symm.trans hkind
    · cases (hnone keyPath hmem).symm.trans hkind
  · exact hloads

end Paths

section Appended

variable (self : SignatureEvaluator) (reqc : ReqContext)
  (resSigList : Option (List (Option ResourceSignature)))
  (signingProfile : ResourceSigningProfile)

/-- The evaluator with further paths. -/
def appendKeyPaths (more : List String) : SignatureEvaluator :=
  self.withKeyPaths (self.config.keyPathList ++ more)

variable {self reqc resSigList signingProfile}

/-- With further paths the keys work as long as those can be tried. -/
theorem KeysWork.append_iff {signerConfig : SignerConfig} {sig : GeneralSignature}
    {signer : Option SignerInfo} {more : List String}
    (hkeys : self.KeysWork reqc signerConfig sig)
    (haccepts : self.Accepts reqc signerConfig sig signer) :
    (self.appendKeyPaths more).KeysWork reqc signerConfig sig ↔
      ((self.withKeyPaths more).verifier signerConfig reqc).KeysRun sig := by
  have hsplit : ((self.appendKeyPaths more).verifier signerConfig reqc).KeysRun sig ↔
      (self.verifier signerConfig reqc).KeysRun sig ∧
        ((self.withKeyPaths more).verifier signerConfig reqc).KeysRun sig := by
    rw [keysRun_iff, keysRun_iff, keysRun_iff]
    exact List.forall_mem_append
  rw [KeysWork, hsplit, keyLoadingError_eq_false_iff]
  constructor
  · exact fun h => h.1.2
  · intro hruns
    obtain ⟨keyPath, hmem, hloads⟩ := haccepts.exists_loads hkeys
    exact ⟨⟨hkeys.1, hruns⟩, .inr ⟨keyPath, List.mem_append_left more hmem, hloads⟩⟩

variable (self reqc resSigList signingProfile)

/-- **When further key paths keep an acceptance.**  A request that is allowed stays
so, precisely if no candidate among the further paths errs, and the signer that is
left after them is still the same, or is accepted as well. -/
theorem eval_append_keys_iff (more : List String) :
    (self.Allows reqc resSigList signingProfile →
        (self.appendKeyPaths more).Allows reqc resSigList signingProfile) ↔
      ∀ signerConfig sig, self.Examined reqc resSigList signingProfile signerConfig sig →
        self.KeysWork reqc signerConfig sig →
        self.Accepts reqc signerConfig sig (self.kept reqc signerConfig sig) →
          ((self.withKeyPaths more).verifier signerConfig reqc).KeysRun sig ∧
          ((self.appendKeyPaths more).kept reqc signerConfig sig = self.kept reqc signerConfig sig ∨
            (self.appendKeyPaths more).Accepts reqc signerConfig sig
              ((self.appendKeyPaths more).kept reqc signerConfig sig)) := by
  constructor
  · intro hmono signerConfig sig hex hkeys haccepts
    have hmore : (self.appendKeyPaths more).Examined reqc resSigList signingProfile signerConfig
        sig := hex.withKeyPaths _
    obtain ⟨hkeys', haccepts'⟩ := hmore.allows_iff.1 (hmono (hex.allows_iff.2 ⟨hkeys, haccepts⟩))
    exact ⟨(hkeys.append_iff haccepts).1 hkeys', .inr haccepts'⟩
  · intro hcond hallows
    obtain ⟨signerConfig, sig, hex, hkeys, haccepts⟩ := allows_iff.1 hallows
    obtain ⟨hruns, hkept⟩ := hcond signerConfig sig hex hkeys haccepts
    have hmore : (self.appendKeyPaths more).Examined reqc resSigList signingProfile signerConfig
        sig := hex.withKeyPaths _
    refine hmore.allows_iff.2 ⟨(hkeys.append_iff haccepts).2 hruns, ?_⟩
    rcases hkept with hsame | haccepts'
    · rw [hsame]
      exact haccepts.mono (List.subset_append_left _ _)
    · exact haccepts'

end Appended

end SignatureEvaluator

end Check

/-- Signatures verify as `alice` under the first PGP key, and an empty text cannot be
parsed as a certificate. -/
@[reducible] def Outside.emptyCertificate : Outside :=
  { Outside.signing configMapJson aliceSigns with
    x509VerifyCertificate := fun certificate _ =>
      if certificate = "" then { ok := false, err := some "failed to parse certificate" }
      else { ok := false } }

/-- An evaluator with the key of `alice` only. -/
def aliceEvaluator : SignatureEvaluator := twoSignersEvaluator.withKeyPaths ["/k1/pgp/pubring.gpg"]

/-- **A certificate directory denies what a PGP key has signed**: the annotations hold
no certificate, so the X509 loop starts with an empty one and ends with its error. -/
theorem eval_append_certificates_denied :
    letI := Outside.emptyCertificate
    (∀ caCertPath, (Outside.x509VerifyCertificate "" caCertPath).err ≠ none) ∧
      aliceEvaluator.Allows configMapCreate none kindProfile ∧
      ¬ (aliceEvaluator.appendKeyPaths ["/k2/x509/ca"]).Allows configMapCreate none
        kindProfile := by
  let _ := Outside.emptyCertificate
  refine ⟨fun _ => ?_, SignatureEvaluator.allows_iff_eval.2 ?_, fun h => ?_⟩
  · exact Option.some_ne_none _
  · decide +kernel
  · have hdeny : ((aliceEvaluator.appendKeyPaths ["/k2/x509/ca"]).eval configMapCreate none
        kindProfile).toOption.any (fun r => r.allow) = false := by
      decide +kernel
    exact Bool.false_ne_true (hdeny.symm.trans (SignatureEvaluator.allows_iff_eval.1 h))

section Check

variable [Outside]

namespace SignatureEvaluator

section Permuted

variable {self : SignatureEvaluator} {reqc : ReqContext} {signerConfig : SignerConfig}
  {sig : GeneralSignature} {keyPathList : List String}

/-- Whether the keys work does not depend on their order. -/
theorem keysWork_perm (hperm : self.config.keyPathList.Perm keyPathList) :
    self.KeysWork reqc signerConfig sig ↔
      (self.withKeyPaths keyPathList).KeysWork reqc signerConfig sig := by
  simp only [KeysWork, keysRun_iff, keyLoadingError_eq_false_iff, hperm.mem_iff, withKeyPaths]

/-- Nor does it matter to whether a given signer is accepted. -/
theorem accepts_perm (hperm : self.config.keyPathList.Perm keyPathList)
    (signer : Option SignerInfo) :
    self.Accepts reqc signerConfig sig signer ↔
      (self.withKeyPaths keyPathList).Accepts reqc signerConfig sig signer :=
  ⟨fun h => h.mono hperm.subset, fun h => h.mono hperm.symm.subset⟩

/-- **When the order of the key paths does not matter.**  Every order of them gives
the same answer, precisely if, for a request with a signature and keys that work, the
signer that an order leaves is accepted whenever that of another is. -/
theorem eval_perm_keys_iff (self : SignatureEvaluator) (reqc : ReqContext)
    (resSigList : Option (List (Option ResourceSignature)))
    (signingProfile : ResourceSigningProfile) :
    (∀ keyPathList, self.config.keyPathList.Perm keyPathList →
        (self.Allows reqc resSigList signingProfile ↔
          (self.withKeyPaths keyPathList).Allows reqc resSigList signingProfile)) ↔
      ∀ signerConfig sig, self.Examined reqc resSigList signingProfile signerConfig sig →
        self.KeysWork reqc signerConfig sig →
        ∀ keyPathList, self.config.keyPathList.Perm keyPathList →
          (self.Accepts reqc signerConfig sig (self.kept reqc signerConfig sig) ↔
            self.Accepts reqc signerConfig sig
              ((self.withKeyPaths keyPathList).kept reqc signerConfig sig)) := by
  constructor
  · intro hsame signerConfig sig hex hkeys keyPathList hperm
    have hallows := hsame keyPathList hperm
    rw [hex.allows_iff, (hex.withKeyPaths keyPathList).allows_iff, ← keysWork_perm hperm,
      ← accepts_perm hperm] at hallows
    simpa only [hkeys, true_and] using hallows
  · intro hcond keyPathList hperm
    by_cases hex : ∃ signerConfig sig,
        self.Examined reqc resSigList signingProfile signerConfig sig ∧
          self.KeysWork reqc signerConfig sig
    · obtain ⟨signerConfig, sig, hex, hkeys⟩ := hex
      rw [hex.allows_iff, (hex.withKeyPaths keyPathList).allows_iff, ← keysWork_perm hperm,
        ← accepts_perm hperm, hcond signerConfig sig hex hkeys keyPathList hperm]
    · constructor
      · intro hallows
        obtain ⟨signerConfig, sig, hex', hkeys, _⟩ := allows_iff.1 hallows
        exact absurd ⟨signerConfig, sig, hex', hkeys⟩ hex
      · intro hallows
        obtain ⟨signerConfig, sig, hex', hkeys, _⟩ := allows_iff.1 hallows
        exact absurd ⟨signerConfig, sig, hex'.withKeyPaths self.config.keyPathList,
          (keysWork_perm hperm).2 hkeys⟩ hex

end Permuted

end SignatureEvaluator

end Check

/-- The creation of the config map, signed with a certificate. -/
def certifiedCreate : ReqContext :=
  { configMapCreate with
    claimedMetadata := {
      annotations := GoMap.writes ∅ [(signatureAnnotationKey, "signature"),
        (messageAnnotationKey, "message"), (certificateAnnotationKey, "certificate")] } }

/-- The certificate of `alice` has been issued by the authority at one path, and has
signed every message. -/
@[reducible] def Outside.issuedBy (issuer : String) : Outside :=
  { Outside.signing configMapJson (fun _ => { ok := false }) with
    x509LoadCertDir := fun _ => 1
    x509VerifyCertificate := fun _ caCertPath => { ok := caCertPath = issuer }
    x509SignerInfo := fun _ => some { email := "alice@x" }
    x509VerifySignature := fun _ _ _ => { ok := true } }

/-- An evaluator with a certificate directory for each of the two signers. -/
def authoritiesEvaluator : SignatureEvaluator :=
  twoSignersEvaluator.withKeyPaths ["/k1/x509/ca", "/k2/x509/ca"]

/-- **The last authority decides**: if it is not the one that has issued the
certificate, the signer is cleared. -/
theorem eval_swap_authorities :
    letI := Outside.issuedBy "/k1/x509/ca"
    authoritiesEvaluator.config.keyPathList.Perm ["/k2/x509/ca", "/k1/x509/ca"] ∧
      ¬ authoritiesEvaluator.Allows certifiedCreate none kindProfile ∧
      (authoritiesEvaluator.withKeyPaths ["/k2/x509/ca", "/k1/x509/ca"]).Allows certifiedCreate none
        kindProfile := by
  let _ := Outside.issuedBy "/k1/x509/ca"
  refine ⟨List.Perm.swap _ _ _, fun h => ?_, SignatureEvaluator.allows_iff_eval.2 ?_⟩
  · have hdeny : (authoritiesEvaluator.eval certifiedCreate none kindProfile).toOption.any
        (fun r => r.allow) = false := by
      decide +kernel
    exact Bool.false_ne_true (hdeny.symm.trans (SignatureEvaluator.allows_iff_eval.1 h))
  · decide +kernel

end Shield
end IntegrityShield
