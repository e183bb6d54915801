/-
# Evaluating a signature

`ConcreteSignatureEvaluator` of `shield/pkg/shield/sign.go`: the search for a
signature of the requested resource, its verification under the candidate keys
of the signer policies, and the check of the signer against the policies.

The parts are put together in `eval_allow_iff`: a request is allowed exactly
when a signature is found, its document matches, no key errs, some key is
loaded, a signer is reported, and a policy accepts that signer with the paths
that verified.
-/

import IntegrityShield.Shield.Config
import IntegrityShield.Shield.Message
import IntegrityShield.Shield.SignVerifier

namespace IntegrityShield
namespace Shield

open Common Apis Mapnode

/-- `ConcreteSignatureEvaluator`. -/
structure SignatureEvaluator where
  config : ShieldConfig
  signerConfig : Option SignerConfig
  plugins : GoMap String Bool

/-- The sign type of an annotation or an item. -/
def signTypeOf (type : String) : SignedResourceType :=
  if type = "applyingResource" then .applyingResource
  else if type = "patch" then .patch
  else .resource

section Check

variable [Outside]

/-- `Node.SubNode`. -/
def subNode (t : Node) (concatKey : String) : Node := (t.getNode concatKey).getD .null

/-- `Node.MultipleSubNode`. -/
def multipleSubNode (t : Node) (concatKey : String) : Go (List Node) :=
  if Strings.contains concatKey "[]" then
    (t.generateKeyList concatKey).map fun keys => keys.map (subNode t)
  else return [subNode t concatKey]

/-- `GenerateMessageFromRawObj`. -/
def generateMessageFromRawObj (rawObj : Option Bytes) (filter mutableAttrs : String) :
    Go String :=
  match newFromBytes rawObj with
  | .error _ => return ""
  | .ok node => do
      let node ← if mutableAttrs = "" then pure node else do
        let (masked, _) ← node.mask (splitCommaSeparatedKeys mutableAttrs)
        pure masked
      if filter = "" then return toJson node ++ "\n"
      else do
        let subNodes ← (splitCommaSeparatedKeys filter).mapM (multipleSubNode node)
        return String.join (subNodes.flatten.map fun subNode => toJson subNode ++ "\n")

/-- The message a signature is verified with: the decoded one, or one generated
from the requested object.  The flag says which. -/
def messageOf (reqc : ReqContext) (isEmpty : Bool) (message messageScope mutableAttrs : String) :
    Go (String × Bool) :=
  if isEmpty && messageScope != "" then do
    let generated ← generateMessageFromRawObj reqc.rawObject messageScope mutableAttrs
    return (generated, true)
  else return (message, false)

/-- The options of a signature, given whether its message was generated. -/
def signatureOptions (generated : Bool) : GoMap String Bool :=
  GoMap.writes ∅ [("matchRequired", !generated), ("scopedSignature", generated)]

/-- A signature in the annotations. -/
def annotationSignature (ref : ResourceRef) (reqc : ReqContext) : Go (Option GeneralSignature) :=
  let sigAnnotations := signatureAnnotations reqc.claimedMetadata.annotations
  if sigAnnotations.signature = "" then return none
  else match findSingleYaml sigAnnotations.message ref with
    | none => return none
    | some yamlBytes => do
        let decoded := decompress (base64decode sigAnnotations.message)
        let (message, generated) ← messageOf reqc (decoded == "") decoded
          sigAnnotations.messageScope sigAnnotations.mutableAttrs
        return some {
          signType := signTypeOf sigAnnotations.signatureType
          data := GoMap.writes ∅ [("signature", base64decode sigAnnotations.signature),
            ("message", message), ("certificate", base64decode sigAnnotations.certificate),
            ("yamlBytes", yamlBytes), ("scope", sigAnnotations.messageScope)]
          option := signatureOptions generated }

/-- A signature in a `ResourceSignature`.  Here the text that is tested for being
empty is the encoded message. -/
def listedSignature (ref : ResourceRef) (reqc : ReqContext)
    (items : List (Option ResourceSignature)) : Go (Option GeneralSignature) := do
  match ← findSignItem ref items with
  | none => return none
  | some (si, yamlBytes, resSigUID) =>
      let (message, generated) ← messageOf reqc (si.message == "")
        (decompress (base64decode si.message)) si.messageScope si.mutableAttrs
      return some {
        signType := signTypeOf si.type
        data := GoMap.writes ∅ [("signature", base64decode si.signature), ("message", message),
          ("certificate", base64decode si.certificate), ("yamlBytes", yamlBytes),
          ("scope", si.messageScope), ("resourceSignatureUID", resSigUID)]
        option := signatureOptions generated }

/-- A signature of a helm release.  An error without text is dereferenced nil. -/
def helmSignature (reqc : ReqContext) : Go (Option GeneralSignature) :=
  match Outside.helmFindReleaseSecret reqc.namespace reqc.kind reqc.name reqc.rawObject with
  | .error _ => return none
  | .ok none => return none
  | .ok (some rsecBytes) =>
      match Outside.helmGetHelmReleaseMetadata rsecBytes with
      | ([rls, hrm], none) => return some {
          signType := .helm
          data := GoMap.writes ∅ [("releaseSecret", rls), ("helmReleaseMetadata", hrm)]
          option := GoMap.writes ∅ [("emptyConfig", true), ("matchRequired", true)] }
      | (_, err) => do
          let _ ← Go.deref err
          return none

namespace SignatureEvaluator

variable (self : SignatureEvaluator)

/-- `ConcreteSignatureEvaluator.GetResourceSignature`. -/
def getResourceSignature (ref : ResourceRef) (reqc : ReqContext)
    (resSigList : Option (List (Option ResourceSignature))) : Go (Option GeneralSignature) := do
  match ← annotationSignature ref reqc with
  | some sig => return some sig
  | none =>
      match ← listedSignature ref reqc (resSigList.getD []) with
      | some sig => return some sig
      | none => if (self.plugins.lookup "helm").getD false then helmSignature reqc else return none

/-- The reference signatures are searched with: the first kustomize pattern
overrides it. -/
def signedRef (reqc : ReqContext) (kustPatterns : List KustomizePattern) : ResourceRef :=
  match kustPatterns with
  | pattern :: _ => pattern.override reqc.resourceRef
  | [] => reqc.resourceRef

/-- There are candidate keys, but none of them can be loaded. -/
def keyLoadingError (pgpPubkeys x509Pubkeys : List String) : Bool :=
  decide (0 < pgpPubkeys.length + x509Pubkeys.length) &&
    !(pgpPubkeys.any (fun keyPath => decide (0 < Outside.pgpLoadKeyRing keyPath)) ||
      x509Pubkeys.any fun certDir => decide (0 < Outside.x509LoadCertDir certDir))

/-- The namespace of dry runs. -/
def dryRunNamespace (reqc : ReqContext) : String :=
  if reqc.resourceScope = "Namespaced" then self.config.namespace else ""

/-- A denial of `Eval`. -/
def denied (reason resourceSignatureUID : String) (error : Option String) : SignatureEvalResult where
  checked := true
  error := some { reason := reason, error := error }
  resourceSignatureUID := resourceSignatureUID

/-- The result of `Eval` for a signer that a policy accepts. -/
def allowed (signer : SignerInfo) (policy : SignerConfigCondition)
    (resourceSignatureUID : String) : SignatureEvalResult where
  signer := some signer
  signerName := signer.getName
  allow := true
  checked := true
  matchedSignerConfig := some policy
  resourceSignatureUID := resourceSignatureUID

/-- `Eval` with a signature and a signer configuration. -/
def evalSignature (signerConfig : SignerConfig) (rsig : GeneralSignature) (reqc : ReqContext)
    (signingProfile : ResourceSigningProfile) : Go SignatureEvalResult := do
  let rsigUID := rsig.datum "resourceSignatureUID"
  let pgpPubkeys := signerConfig.getCandidatePubkeys self.config.keyPathList reqc.namespace .pgp
  let x509Pubkeys := signerConfig.getCandidatePubkeys self.config.keyPathList reqc.namespace .x509
  let v ← verifySignature rsig.signType (self.dryRunNamespace reqc) pgpPubkeys x509Pubkeys
    self.config.keyPathList rsig reqc signingProfile
  match v.err with
  | some err => do
      let checkError ← Go.deref v.result.error
      return denied ("Error during signature verification; " ++ checkError.reason ++ "; " ++ err)
        rsigUID (some err)
  | none =>
      if keyLoadingError pgpPubkeys x509Pubkeys then
        return denied ReasonCode.noValidKeyring.message rsigUID none
      else match v.result.signer with
        | none =>
            let detail := match v.result.error with
              | some e => "; " ++ e.reason
              | none => ""
            return denied (ReasonCode.invalidSig.message ++ detail) rsigUID none
        | some signer => do
            match ← signerConfig.matchConfig reqc.namespace signer v.verifiedKeyPathList with
            | some policy => return allowed signer policy rsigUID
            | none => return { denied (ReasonCode.noMatchSignerConfig.message ++
                  "; This resource is signed by " ++ signer.getNameWithFingerprint) rsigUID none with
                signer := some signer
                signerName := signer.getName }

/-- `ConcreteSignatureEvaluator.Eval`; its second result is always nil. -/
def eval (reqc : ReqContext) (resSigList : Option (List (Option ResourceSignature)))
    (signingProfile : ResourceSigningProfile) : Go SignatureEvalResult := do
  let kustPatterns ← signingProfile.kustomize reqc.map
  match ← self.getResourceSignature (signedRef reqc kustPatterns) reqc resSigList with
  | none => return denied ReasonCode.noSig.message "" none
  | some rsig => do
      let signerConfig ← Go.deref self.signerConfig
      self.evalSignature signerConfig rsig reqc signingProfile

/-- The verifier of a request. -/
def verifier (signerConfig : SignerConfig) (reqc : ReqContext) : ResourceVerifier where
  pgpKeyPathList := signerConfig.getCandidatePubkeys self.config.keyPathList reqc.namespace .pgp
  x509KeyPathList := signerConfig.getCandidatePubkeys self.config.keyPathList reqc.namespace .x509
  allMountedKeyPathList := self.config.keyPathList
  dryRunNamespace := self.dryRunNamespace reqc

/-- A request passes all stages of `Eval` with a signature, a signer and a
policy. -/
structure Passes (evaluator : SignatureEvaluator) (reqc : ReqContext)
    (resSigList : Option (List (Option ResourceSignature)))
    (signingProfile : ResourceSigningProfile) (signerConfig : SignerConfig)
    (kustPatterns : List KustomizePattern) (sig : GeneralSignature) (signer : SignerInfo)
    (policy : SignerConfigCondition) : Prop where
  hasConfig : evaluator.signerConfig = some signerConfig
  kustomized : signingProfile.kustomize reqc.map = .ok kustPatterns
  found : evaluator.getResourceSignature (signedRef reqc kustPatterns) reqc resSigList =
    .ok (some sig)
  notHelm : sig.signType ≠ .helm
  matched : (evaluator.verifier signerConfig reqc).matchDenial sig.sigFrom sig reqc
    signingProfile = .ok none
  inScope : scopeDenial sig.sigFrom sig reqc = .ok none
  keysRun : (evaluator.verifier signerConfig reqc).KeysRun sig
  keysLoaded : keyLoadingError (evaluator.verifier signerConfig reqc).pgpKeyPathList
    (evaluator.verifier signerConfig reqc).x509KeyPathList = false
  kept : (evaluator.verifier signerConfig reqc).keptSigner sig = some signer
  accepted : signerConfig.matchConfig reqc.namespace signer
    ((evaluator.verifier signerConfig reqc).verifiedPaths sig) = .ok (some policy)

/-- A resource signature is verified by the `ResourceVerifier`. -/
theorem verifySignature_of_not_helm {sig : GeneralSignature} (h : sig.signType ≠ .helm)
    (signerConfig : SignerConfig) (reqc : ReqContext) (signingProfile : ResourceSigningProfile) :
    verifySignature sig.signType (self.dryRunNamespace reqc)
        (signerConfig.getCandidatePubkeys self.config.keyPathList reqc.namespace .pgp)
        (signerConfig.getCandidatePubkeys self.config.keyPathList reqc.namespace .x509)
        self.config.keyPathList sig reqc signingProfile =
      (self.verifier signerConfig reqc).verify sig reqc signingProfile := by
  cases htype : sig.signType with
  | helm => exact absurd htype h
  | resource => rfl
  | applyingResource => rfl
  | patch => rfl

/-- An allowed evaluation has a verified path, so it is not of a helm chart. -/
theorem not_helm_of_matchConfig {sig : GeneralSignature} {signerConfig : SignerConfig}
    {ns : String} {signer : SignerInfo} {policy : SignerConfigCondition} {v : Verification}
    {dryRunNamespace : String} {pgp x509 all : List String} {reqc : ReqContext}
    {signingProfile : ResourceSigningProfile}
    (hv : verifySignature sig.signType dryRunNamespace pgp x509 all sig reqc signingProfile = .ok v)
    (hmatch : signerConfig.matchConfig ns signer v.verifiedKeyPathList = .ok (some policy)) :
    sig.signType ≠ .helm := by
  intro htype
  rw [htype] at hv
  obtain ⟨_, _, _, _, _, _, _, _, _, keyPath, hmem, _⟩ := SignerConfig.matchConfig_eq_some hmatch
  rw [HelmVerifier.verify_eq_ok hv] at hmem
  cases hmem

/-- **When a request is allowed.** -/
theorem eval_allow_iff (reqc : ReqContext) (resSigList : Option (List (Option ResourceSignature)))
    (signingProfile : ResourceSigningProfile) (r : SignatureEvalResult) :
    (self.eval reqc resSigList signingProfile = .ok r ∧ r.allow = true) ↔
      ∃ signerConfig kustPatterns sig signer policy,
        self.Passes reqc resSigList signingProfile signerConfig kustPatterns sig signer policy ∧
        r = allowed signer policy (sig.datum "resourceSignatureUID") := by
  constructor
  · rintro ⟨h, hallow⟩
    rw [eval, Go.bind_eq_ok] at h
    obtain ⟨kustPatterns, hkust, h⟩ := h
    obtain ⟨found, hfound, h⟩ := Go.bind_eq_ok.1 h
    cases found with
    | none =>
        cases h
        cases hallow
    | some sig =>
        obtain ⟨signerConfig, hconfig, h⟩ := Go.bind_eq_ok.1 h
        obtain ⟨v, hv, h⟩ := Go.bind_eq_ok.1 h
        have hconfig' : self.signerConfig = some signerConfig := by
          cases hc : self.signerConfig with
          | none => rw [hc] at hconfig; cases hconfig
          | some c => rw [hc] at hconfig; cases hconfig; rfl
        cases herr : v.err with
        | some err =>
            simp only [herr] at h
            obtain ⟨_, _, h⟩ := Go.bind_eq_ok.1 h
            cases h
            cases hallow
        | none =>
            simp only [herr] at h
            split at h
            · cases h
              cases hallow
            rename_i hloaded
            cases hsigner : v.result.signer with
            | none =>
                simp only [hsigner] at h
                cases h
                cases hallow
            | some signer =>
                simp only [hsigner] at h
                obtain ⟨policy, hpolicy, h⟩ := Go.bind_eq_ok.1 h
                cases policy with
                | none =>
                    cases h
                    cases hallow
                | some policy =>
                    cases h
                    have hhelm := not_helm_of_matchConfig hv hpolicy
                    rw [self.verifySignature_of_not_helm hhelm] at hv
                    obtain ⟨hmatched, hscope, hruns, hkept, hpaths⟩ :=
                      (verify_signer_iff _ sig reqc signingProfile signer _).1
                        ⟨v, hv, herr, hsigner, rfl⟩
                    exact ⟨signerConfig, kustPatterns, sig, signer, policy,
                      ⟨hconfig', hkust, hfound, hhelm, hmatched, hscope, hruns,
                        Bool.eq_false_iff.2 hloaded, hkept, hpaths ▸ hpolicy⟩, rfl⟩
  · rintro ⟨signerConfig, kustPatterns, sig, signer, policy, hp, rfl⟩
    obtain ⟨v, hv, herr, hsigner, hpaths⟩ :=
      (verify_signer_iff _ sig reqc signingProfile signer _).2
        ⟨hp.matched, hp.inScope, hp.keysRun, hp.kept, rfl⟩
    have hloaded := hp.keysLoaded
    have haccepted := hp.accepted
    rw [← hpaths] at haccepted
    simp only [verifier] at hloaded
    rw [eval, hp.kustomized]
    simp only [bind, Except.bind, hp.found, hp.hasConfig, Go.deref, evalSignature,
      self.verifySignature_of_not_helm hp.notHelm, hv, herr, hloaded, Bool.false_eq_true, if_false,
      hsigner, haccepted, pure, Except.pure, true_and]
    rfl

/-- The annotations of a request as an item. -/
def annotationItem (reqc : ReqContext) : SignItem :=
  let sigAnnotations := signatureAnnotations reqc.claimedMetadata.annotations
  { message := sigAnnotations.message
    messageScope := sigAnnotations.messageScope
    mutableAttrs := sigAnnotations.mutableAttrs
    signature := sigAnnotations.signature
    certificate := sigAnnotations.certificate
    type := sigAnnotations.signatureType }

/-- An item in the annotations of a request or in a `ResourceSignature`. -/
def ItemFound (reqc : ReqContext) (resSigList : Option (List (Option ResourceSignature)))
    (si : SignItem) : Prop :=
  (si = annotationItem reqc ∧ si.signature ≠ "") ∨
    ∃ ss, some ss ∈ resSigList.getD [] ∧ some si ∈ ss.data

/-- A signature holds the decoded texts of an item and one of its documents, and
is to be compared with the request. -/
structure OfItem (sig : GeneralSignature) (si : SignItem) (yamlBytes : Bytes) : Prop where
  signType : sig.signType = signTypeOf si.type
  message : sig.datum "message" = decompress (base64decode si.message)
  signature : sig.datum "signature" = base64decode si.signature
  certificate : sig.data.lookup "certificate" = some (base64decode si.certificate)
  document : sig.data.lookup "yamlBytes" = some yamlBytes
  matchRequired : sig.flag "matchRequired" = true

/-- A message with a document is not empty. -/
theorem decoded_ne_empty (hyaml : Outside.yamlDocuments "" = []) {message : String}
    {ref : ResourceRef} {yamlBytes : Bytes} (h : findSingleYaml message ref = some yamlBytes) :
    decompress (base64decode message) ≠ "" ∧ message ≠ "" := by
  obtain ⟨doc, hdoc, _⟩ := findSingleYaml_eq_some h
  have hdecoded : decompress (base64decode message) ≠ "" := by
    intro hempty
    rw [hempty, hyaml] at hdoc
    cases hdoc
  refine ⟨hdecoded, ?_⟩
  rintro rfl
  apply hdecoded
  rw [base64decode, Outside.base64Decode_empty]
  rfl

/-- **The comparison is never skipped**: every signature that is found is of an
item with a document, and requires the match, unless it is of a chart. -/
theorem getResourceSignature_eq_some (hyaml : Outside.yamlDocuments "" = []) {ref : ResourceRef}
    {reqc : ReqContext} {resSigList : Option (List (Option ResourceSignature))}
    {sig : GeneralSignature}
    (h : self.getResourceSignature ref reqc resSigList = .ok (some sig))
    (hhelm : sig.signType ≠ .helm) :
    ∃ si yamlBytes, ItemFound reqc resSigList si ∧
      findSingleYaml si.message ref = some yamlBytes ∧ OfItem sig si yamlBytes := by
  rw [getResourceSignature, Go.bind_eq_ok] at h
  obtain ⟨found, hfound, h⟩ := h
  cases found with
  | some found =>
      cases h
      unfold annotationSignature at hfound
      simp only at hfound
      split at hfound
      · cases hfound
      rename_i hsignature
      split at hfound
      · cases hfound
      rename_i yamlBytes hyamlBytes
      have hne := (decoded_ne_empty hyaml hyamlBytes).1
      rw [messageOf, beq_false_of_ne hne] at hfound
      cases hfound
      exact ⟨annotationItem reqc, yamlBytes, Or.inl ⟨rfl, hsignature⟩, hyamlBytes,
        rfl, rfl, rfl, rfl, rfl, rfl⟩
  | none =>
      obtain ⟨listed, hlisted, h⟩ := Go.bind_eq_ok.1 h
      cases listed with
      | some listed =>
          cases h
          rw [listedSignature, Go.bind_eq_ok] at hlisted
          obtain ⟨item, hitem, hlisted⟩ := hlisted
          cases item with
          | none => cases hlisted
          | some item =>
              obtain ⟨si, yamlBytes, uid⟩ := item
              obtain ⟨⟨ss, hss, hsi, _⟩, hyamlBytes⟩ := findSignItem_eq_some hitem
              have hne := (decoded_ne_empty hyaml hyamlBytes).2
              simp only [messageOf, beq_false_of_ne hne] at hlisted
              cases hlisted
              exact ⟨si, yamlBytes, Or.inr ⟨ss, hss, hsi⟩, hyamlBytes,
                rfl, rfl, rfl, rfl, rfl, rfl⟩
      | none =>
          exfalso
          simp only at h
          split at h
          · unfold helmSignature at h
            split at h
            · cases h
            · cases h
            · split at h
              · cases h
                exact hhelm rfl
              · obtain ⟨_, _, h⟩ := Go.bind_eq_ok.1 h
                cases h
          · cases h

/-- The match of a signature that requires it has accepted its document. -/
theorem matchMessage_of_matchDenial {verifier : ResourceVerifier} {sig : GeneralSignature}
    {si : SignItem} {yamlBytes : Bytes} (hsig : OfItem sig si yamlBytes) {sigFrom : String}
    {reqc : ReqContext} {signingProfile : ResourceSigningProfile}
    {kustPatterns : List KustomizePattern}
    (hkust : signingProfile.kustomize reqc.map = .ok kustPatterns)
    (h : verifier.matchDenial sigFrom sig reqc signingProfile = .ok none) :
    ∃ protectAttrs ignoreAttrs diffStr,
      signingProfile.protectAttrs reqc.map = .ok protectAttrs ∧
      signingProfile.ignoreAttrs reqc.map = .ok ignoreAttrs ∧
      verifier.matchMessage yamlBytes reqc.rawObject protectAttrs ignoreAttrs
        (makeAllowDiffPatterns reqc kustPatterns) reqc.resourceScope reqc.kind
        (signTypeOf si.type) reqc.excludeDiffValue = .ok (true, diffStr) := by
  rw [ResourceVerifier.matchDenial, Go.bind_eq_ok] at h
  obtain ⟨kustPatterns', hkust', h⟩ := h
  obtain rfl := Except.ok.inj (hkust'.symm.trans hkust)
  obtain ⟨protectAttrs, hprotect, h⟩ := Go.bind_eq_ok.1 h
  obtain ⟨ignoreAttrs, hignore, h⟩ := Go.bind_eq_ok.1 h
  simp only [hsig.matchRequired, if_true, hsig.document, Option.getD_some, hsig.signType] at h
  obtain ⟨⟨matched, diffStr⟩, hmatch, h⟩ := Go.bind_eq_ok.1 h
  cases matched with
  | false => cases h
  | true => exact ⟨protectAttrs, ignoreAttrs, diffStr, hprotect, hignore, hmatch⟩

/-- A candidate key of a namespace under which a signature verifies. -/
def CandidateVerifies (signerConfig : SignerConfig) (keyPathList : List String) (ns : String)
    (message signature certificate keyPath : String) : Prop :=
  (keyPath ∈ signerConfig.getCandidatePubkeys keyPathList ns .pgp ∧
    (Outside.pgpVerifySignature keyPath message signature).ok = true) ∨
  (keyPath ∈ signerConfig.getCandidatePubkeys keyPathList ns .x509 ∧
    (Outside.x509VerifyCertificate certificate keyPath).ok = true ∧
    (Outside.x509VerifySignature message signature (Outside.x509PublicKey certificate)).ok = true)

theorem candidateVerifies_of_mem_verifiedPaths {sig : GeneralSignature} {si : SignItem}
    {yamlBytes : Bytes} (hsig : OfItem sig si yamlBytes) {signerConfig : SignerConfig}
    {reqc : ReqContext} {keyPath : String}
    (h : keyPath ∈ (self.verifier signerConfig reqc).verifiedPaths sig) :
    CandidateVerifies signerConfig self.config.keyPathList reqc.namespace
      (decompress (base64decode si.message)) (base64decode si.signature)
      (base64decode si.certificate) keyPath := by
  rw [ResourceVerifier.verifiedPaths, hsig.certificate, hsig.message, hsig.signature] at h
  rcases List.mem_append.1 h with h | h
  · obtain ⟨hmem, hsome⟩ := List.mem_filter.1 h
    refine Or.inl ⟨hmem, ?_⟩
    by_contra hok
    rw [pgpSigner, if_neg hok] at hsome
    cases hsome
  · obtain ⟨hmem, hsome⟩ := List.mem_filter.1 h
    refine Or.inr ⟨hmem, ?_⟩
    rw [← Bool.and_eq_true]
    by_contra hok
    rw [x509Signer, if_neg hok] at hsome
    cases hsome

/-- **Signature admission is sound.**  An allowed request has a signature in its
annotations or in a `ResourceSignature`; a document of the very message that was
verified matches the requested object; the message verifies under a candidate
key of the namespace; and a policy that applies there lists a signer with a
subject that matches the reported one and with that key's configuration. -/
theorem eval_allow_sound (reqc : ReqContext)
    (resSigList : Option (List (Option ResourceSignature)))
    (signingProfile : ResourceSigningProfile) (r : SignatureEvalResult)
    (hyaml : Outside.yamlDocuments "" = [])
    (heval : self.eval reqc resSigList signingProfile = .ok r) (hallow : r.allow = true) :
    ∃ signerConfig kustPatterns si yamlBytes,
      self.signerConfig = some signerConfig ∧
      signingProfile.kustomize reqc.map = .ok kustPatterns ∧
      ItemFound reqc resSigList si ∧
      findSingleYaml si.message (signedRef reqc kustPatterns) = some yamlBytes ∧
      (∃ protectAttrs ignoreAttrs diffStr,
        signingProfile.protectAttrs reqc.map = .ok protectAttrs ∧
        signingProfile.ignoreAttrs reqc.map = .ok ignoreAttrs ∧
        (self.verifier signerConfig reqc).matchMessage yamlBytes reqc.rawObject protectAttrs
          ignoreAttrs (makeAllowDiffPatterns reqc kustPatterns) reqc.resourceScope reqc.kind
          (signTypeOf si.type) reqc.excludeDiffValue = .ok (true, diffStr)) ∧
      (∃ doc ∈ Outside.yamlDocuments (decompress (base64decode si.message)),
        Outside.yamlMarshal doc = .ok yamlBytes) ∧
      ∃ keyPath signer policy,
        CandidateVerifies signerConfig self.config.keyPathList reqc.namespace
          (decompress (base64decode si.message)) (base64decode si.signature)
          (base64decode si.certificate) keyPath ∧
        r.signer = some signer ∧
        policy ∈ signerConfig.policies ∧
        ((reqc.namespace = "" ∧ policy.scope = "Cluster") ∨
          (reqc.namespace ≠ "" ∧ policy.scope ≠ "Cluster" ∧
            matchWithPatternArray reqc.namespace policy.namespaces = true ∧
            matchWithPatternArray reqc.namespace policy.excludeNamespaces = false)) ∧
        ∃ signerName ∈ policy.signers, ∃ conditions,
          signerConfig.getSignerMap.lookup signerName = some conditions ∧
          ∃ sc ∈ conditions, sc.matchSigner signer = .ok true ∧
            Strings.contains keyPath ("/" ++ sc.keyConfig ++ "/") = true := by
  obtain ⟨signerConfig, kustPatterns, sig, signer, policy, hp, rfl⟩ :=
    (self.eval_allow_iff reqc resSigList signingProfile r).1 ⟨heval, hallow⟩
  obtain ⟨si, yamlBytes, hitem, hyamlBytes, hsig⟩ :=
    self.getResourceSignature_eq_some hyaml hp.found hp.notHelm
  obtain ⟨hpolicy, happlies, signerName, hname, conditions, hlookup, sc, hsc, hsubject, keyPath,
    hkeyPath, hcontains⟩ := SignerConfig.matchConfig_eq_some hp.accepted
  refine ⟨signerConfig, kustPatterns, si, yamlBytes, hp.hasConfig, hp.kustomized, hitem, hyamlBytes,
    matchMessage_of_matchDenial hsig hp.kustomized hp.matched, findSingleYaml_eq_some hyamlBytes,
    keyPath, signer, policy, self.candidateVerifies_of_mem_verifiedPaths hsig hkeyPath, rfl,
    hpolicy, (SignerConfig.appliesTo_iff policy reqc.namespace).1 happlies, signerName, hname,
    conditions, hlookup, sc, hsc, hsubject, hcontains⟩

end SignatureEvaluator

end Check

/-- Libraries that decode `message` to one document, read it and `request` as one
object, and verify signatures with some outcomes. -/
@[reducible] def Outside.signing (object : JsonMap) (pgp : String → PgpOutcome) : Outside :=
  { Outside.silent with
    base64Decode := some
    base64Decode_empty := rfl
    yamlDocuments := fun raw => if raw = "message" then [.obj object] else []
    yamlMarshal := fun _ => .ok "document"
    yamlUnmarshal := fun raw => if raw = "document" then .ok object else .error "invalid"
    jsonUnmarshal := fun raw => if raw = "request" then .ok object else .error "invalid"
    pgpVerifySignature := fun keyPath _ _ => pgp keyPath
    pgpLoadKeyRing := fun _ => 1 }

/-- A config map. -/
def configMapJson : JsonMap :=
  [("apiVersion", .scalar (.str "v1")), ("kind", .scalar (.str "ConfigMap")),
    ("metadata", .obj [("name", .scalar (.str "cm"))])]

/-- The creation of the config map, with a signature in its annotations. -/
def configMapCreate : ReqContext where
  operation := "CREATE"
  resourceScope := "Namespaced"
  apiVersion := "v1"
  kind := "ConfigMap"
  «namespace» := "ns"
  name := "cm"
  rawObject := some "request"
  claimedMetadata := {
    annotations := GoMap.writes ∅ [(signatureAnnotationKey, "signature"),
      (messageAnnotationKey, "message")] }

/-- A profile that protects the kind of every object. -/
def kindProfile : ResourceSigningProfile where
  spec := { protectAttrs := [some { matches_ := [some { kind := some "*" }], attrs := ["kind"] }] }

/-- The signers `alice` and `bob`, each with a key configuration of their own. -/
def twoSigners : SignerConfig where
  policies := [{ scope := "Namespaced", namespaces := ["ns"], signers := ["alice", "bob"] }]
  signers := [{ name := "alice", keyConfig := "k1", subjects := [{ email := "alice@x" }] },
    { name := "bob", keyConfig := "k2", subjects := [{ email := "bob@x" }] }]

/-- An evaluator with a key path for each of them, as the operator builds it. -/
def twoSignersEvaluator : SignatureEvaluator where
  config := { keyPathList := ["/k1/pgp/pubring.gpg", "/k2/pgp/pubring.gpg"] }
  signerConfig := some twoSigners
  plugins := ∅

/-- A successful verification for a mail address. -/
def verifiedAs (email : String) : PgpOutcome :=
  { ok := true, signer := some { email := email, name := "", comment := "" } }

/-- The first key verifies as `alice`, the second one does not verify. -/
def aliceSigns (keyPath : String) : PgpOutcome :=
  if keyPath = "/k1/pgp/pubring.gpg" then verifiedAs "alice@x" else { ok := false }

theorem eval_allow_sound_alice :
    letI := Outside.signing configMapJson aliceSigns
    ∃ r, twoSignersEvaluator.eval configMapCreate none kindProfile = .ok r ∧ r.allow = true ∧
      ∃ signerConfig si keyPath, SignatureEvaluator.ItemFound configMapCreate none si ∧
        SignatureEvaluator.CandidateVerifies signerConfig
          twoSignersEvaluator.config.keyPathList "ns" (decompress (base64decode si.message))
          (base64decode si.signature) (base64decode si.certificate) keyPath := by
  let _ := Outside.signing configMapJson aliceSigns
  obtain ⟨r, hr, hallow⟩ : ∃ r, twoSignersEvaluator.eval configMapCreate none kindProfile = .ok r ∧
      r.allow = true := Go.exists_of_toOption_map (by decide +kernel)
  obtain ⟨signerConfig, _, si, _, _, _, hitem, _, _, _, keyPath, _, _, hverifies, _⟩ :=
    twoSignersEvaluator.eval_allow_sound configMapCreate none kindProfile r rfl hr hallow
  exact ⟨r, hr, hallow, signerConfig, si, keyPath, hitem, hverifies⟩

end Shield
end IntegrityShield
