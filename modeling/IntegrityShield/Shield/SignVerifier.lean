/-
# Verifying a signature

`ResourceVerifier` and `HelmVerifier` of `shield/pkg/shield/signVerifier.go`.

`ResourceVerifier.Verify` compares the signed document with the requested
object, checks the scope of a scoped signature, and then tries the signature
under every candidate key: first all PGP keys, then all X509 ones.  The error
and the signer it reports are shared by both loops, so that they are those of
the last key that set them, while the paths that verified are collected.  When
no signer is left, every mounted PGP key is tried for a name to report.
`verify_signer_iff` says what a run that reports a signer has gone through.
-/

import IntegrityShield.Apis.ResourceSigningProfile
import IntegrityShield.Common.Result
import IntegrityShield.Shield.Contents

namespace IntegrityShield
namespace Shield

open Common Apis Mapnode

/-- `SignedResourceType`. -/
inductive SignedResourceType where
  | resource
  | applyingResource
  | patch
  | helm
deriving DecidableEq

/-- `GeneralSignature`. -/
structure GeneralSignature where
  signType : SignedResourceType
  data : GoMap String String
  option : GoMap String Bool

/-- `sig.data[key]`, the empty string if there is none. -/
def GeneralSignature.datum (sig : GeneralSignature) (key : String) : String :=
  (sig.data.lookup key).getD ""

/-- `sig.option[key]`. -/
def GeneralSignature.flag (sig : GeneralSignature) (key : String) : Bool :=
  (sig.option.lookup key).getD false

/-- `SigVerifyResult`. -/
structure SigVerifyResult where
  error : Option CheckError := none
  signer : Option SignerInfo := none

/-- The results of `Verify`: the result, the key paths that verified, and an
error. -/
structure Verification where
  result : SigVerifyResult
  verifiedKeyPathList : List String := []
  err : Option String := none

/-- An error that ends a key loop, and the result returned with it. -/
structure KeyError where
  result : SigVerifyResult
  err : String

/-- The variables the two key loops of `Verify` share. -/
structure KeyLoop where
  vcerr : Option CheckError := none
  vsinfo : Option SignerInfo := none
  verifiedKeyPathList : List String := []

/-- `ResourceVerifier`. -/
structure ResourceVerifier where
  pgpKeyPathList : List String
  x509KeyPathList : List String
  allMountedKeyPathList : List String
  dryRunNamespace : String

/-- `HelmVerifier`; its namespace is never read. -/
structure HelmVerifier where
  keyPathList : List String

/-- A result that denies with a message. -/
def denyWith (msg : String) : Verification where
  result := { error := some { msg := msg, reason := msg } }

section Check

variable [Outside]

/-- `makeAllowDiffPatterns`. -/
def makeAllowDiffPatterns (reqc : ReqContext) (kustomizeList : List KustomizePattern) :
    List Difference :=
  -- `Override` writes to the reference it is given, so each pattern goes on from the one before
  let kustomizedName := (kustomizeList.foldl (fun ref pattern => pattern.override ref)
    reqc.resourceRef).name
  if kustomizedName = reqc.name then []
  else [⟨"metadata.name", some (.str reqc.name), some (.str kustomizedName)⟩]

/-- The mask of the cases after a dry run. -/
def dryRunMask (addMask : List String) : List String :=
  getMaskDef "" ++ addMask ++ ["metadata.name", "status"]

/-- A dry run of a patched object, and the comparison with what it gives. -/
def matchDryRun (case : ℕ) (dryRunNamespace : String) (node : Node) (reqObj : Option Bytes)
    (focus addMask : List String) (allowDiffPatterns : List Difference)
    (excludeDiffValue : Bool) : Go (Except String ((Bool × String) × List String)) := do
  let (masked, _) ← node.mask ["metadata.namespace"]
  match Outside.dryRunCreate case (← toYaml masked) dryRunNamespace with
  | .error e => return .error e
  | .ok simObj =>
      let r ← matchContents simObj reqObj focus (dryRunMask addMask) allowDiffPatterns
        excludeDiffValue
      return .ok r

/-- `ResourceVerifier.MatchMessage`. -/
def ResourceVerifier.matchMessage (self : ResourceVerifier) (message : Bytes)
    (reqObj : Option Bytes) (protectAttrs ignoreAttrs : List AttrsPattern)
    (allowDiffPatterns : List Difference) (resScope resKind : String)
    (signType : SignedResourceType) (excludeDiffValue : Bool) : Go (Bool × String) := do
  match newFromYamlBytes message with
  | .error _ => return (false, "")
  | .ok orgNode =>
      let focus := protectAttrs.flatMap AttrsPattern.attrs
      let addMask := if focus.length = 0 then ignoreAttrs.flatMap AttrsPattern.attrs else []
      -- CASE1: direct matching
      let (direct, focus) ← matchContents message reqObj focus (getMaskDef "" ++ addMask)
        allowDiffPatterns excludeDiffValue
      if resScope = "Cluster" ∧ resKind ≠ "CustomResourceDefinition" then return direct
      if direct.1 then return direct
      -- CASE2: dry run for create or for update by edit/replace
      match ← matchDryRun 2 self.dryRunNamespace orgNode reqObj focus addMask allowDiffPatterns
          excludeDiffValue with
      | .error _ => return (false, "")
      | .ok (created, focus) =>
          if created.1 then return created
          -- CASE3: dry run for update by apply
          let reqNamespace := getNodeString (nodeOrEmpty (newFromBytes reqObj)) "metadata.namespace"
          match Outside.getApplyPatchBytes message reqNamespace with
          | .error _ => return (false, "")
          | .ok patchedBytes =>
              match ← matchDryRun 3 self.dryRunNamespace
                  (nodeOrEmpty (newFromBytes (some patchedBytes))) reqObj focus addMask
                  allowDiffPatterns excludeDiffValue with
              | .error _ => return (false, "")
              | .ok (applied, focus) =>
                  if applied.1 then return applied
                  if signType ≠ .patch then return applied
                  -- CASE4: dry run for update by patch
                  match Outside.strategicMergePatch reqObj message with
                  | .error _ => return (false, "")
                  | .ok patchedBytes =>
                      match ← matchDryRun 4 self.dryRunNamespace
                          (nodeOrEmpty (newFromBytes (some patchedBytes))) reqObj focus addMask
                          allowDiffPatterns excludeDiffValue with
                      | .error _ => return (false, "")
                      | .ok (patched, _) => return patched

/-- The signer of a PGP key. -/
def pgpSignerInfo (signer : PgpSigner) (fingerprint : Option String) : SignerInfo where
  email := signer.email
  name := signer.name
  comment := signer.comment
  fingerprint := fingerprint

/-- The loop over the PGP keys: it ends with the first error. -/
def verifyPgpKeys (sigFrom message signature : String) :
    List String → KeyLoop → Go (Except KeyError KeyLoop)
  | [], loop => .ok (.ok loop)
  | keyPath :: rest, loop =>
      let outcome := Outside.pgpVerifySignature keyPath message signature
      match outcome.err with
      | some err => .ok (.error {
          result := { error := some {
            msg := "Error occured while verifying signature in " ++ sigFrom
            reason := outcome.reasonFail
            error := some err } }
          err := err })
      | none =>
          if outcome.ok then do
            let signer ← Go.deref outcome.signer
            verifyPgpKeys sigFrom message signature rest {
              vcerr := none
              vsinfo := some (pgpSignerInfo signer outcome.fingerprint)
              verifiedKeyPathList := loop.verifiedKeyPathList ++ [keyPath] }
          else
            verifyPgpKeys sigFrom message signature rest { loop with
              vcerr := some {
                msg := "Failed to verify signature in " ++ sigFrom
                reason := outcome.reasonFail } }

/-- The loop over the X509 keys; a key that does not verify clears the signer. -/
def verifyX509Keys (sigFrom message signature certificate : String) :
    List String → KeyLoop → Go (Except KeyError KeyLoop)
  | [], loop => .ok (.ok loop)
  | caCertPath :: rest, loop =>
      let certOutcome := Outside.x509VerifyCertificate certificate caCertPath
      match certOutcome.err with
      | some err => .ok (.error {
          result := { error := some {
            msg := "Error occured while verifying certificate in " ++ sigFrom
            reason := certOutcome.reasonFail
            error := some err } }
          err := err })
      | none =>
          if certOutcome.ok then
            let outcome :=
              Outside.x509VerifySignature message signature (Outside.x509PublicKey certificate)
            match outcome.err with
            | some err => .ok (.error {
                result := {
                  error := some {
                    msg := "Error occured while verifying signature in " ++ sigFrom
                    reason := outcome.reasonFail
                    error := some err }
                  signer := loop.vsinfo }
                err := err })
            | none =>
                if outcome.ok then do
                  let signer ← Go.deref (Outside.x509SignerInfo certificate)
                  verifyX509Keys sigFrom message signature certificate rest {
                    vcerr := none
                    vsinfo := some signer
                    verifiedKeyPathList := loop.verifiedKeyPathList ++ [caCertPath] }
                else
                  verifyX509Keys sigFrom message signature certificate rest { loop with
                    vcerr := some {
                      msg := "Failed to verify signature in " ++ sigFrom
                      reason := outcome.reasonFail }
                    vsinfo := none }
          else
            verifyX509Keys sigFrom message signature certificate rest { loop with
              vcerr := some {
                msg := "Failed to verify certificate in " ++ sigFrom
                reason := certOutcome.reasonFail }
              vsinfo := none }

/-- The signer a PGP key gives a signature that it verifies. -/
def pgpSigner (message signature keyPath : String) : Option SignerInfo :=
  let outcome := Outside.pgpVerifySignature keyPath message signature
  if outcome.ok then outcome.signer.map fun signer => pgpSignerInfo signer outcome.fingerprint
  else none

/-- The additional trial of every mounted PGP key. -/
def alternativeSigner (message signature : String) (keyPaths : List String) : Option SignerInfo :=
  keyPaths.findSome? fun keyPath =>
    if Strings.contains keyPath "/pgp/" then pgpSigner message signature keyPath else none

/-- The first step of `Verify`: the comparison with the requested object, and
the message it denies with. -/
def ResourceVerifier.matchDenial (self : ResourceVerifier) (sigFrom : String)
    (sig : GeneralSignature) (reqc : ReqContext) (signingProfile : ResourceSigningProfile) :
    Go (Option String) := do
  let kustomizeList ← signingProfile.kustomize reqc.map
  let allowDiffPatterns := makeAllowDiffPatterns reqc kustomizeList
  let protectAttrsList ← signingProfile.protectAttrs reqc.map
  let ignoreAttrsList ← signingProfile.ignoreAttrs reqc.map
  if sig.flag "matchRequired" then
    -- the single document extracted from the message, if there is one
    let message := (sig.data.lookup "yamlBytes").getD (sig.datum "message")
    let (matched, diffStr) ← self.matchMessage message reqc.rawObject protectAttrsList
      ignoreAttrsList allowDiffPatterns reqc.resourceScope reqc.kind sig.signType
      reqc.excludeDiffValue
    if matched then return none
    else return some ("The message for this signature in " ++ sigFrom ++
      " is not identical with the requested object. diff: " ++ diffStr)
  else return none

/-- The second step: the scope of a scoped signature. -/
def scopeDenial (sigFrom : String) (sig : GeneralSignature) (reqc : ReqContext) :
    Go (Option String) :=
  if !sig.flag "scopedSignature" || reqc.isCreateRequest then return none
  else if !reqc.isUpdateRequest then return some ""
  else if integrityVerified reqc.orgMetadata.labels then do
    let diffIsInMessageScope ← isPatchWithScopeKey reqc.rawOldObject reqc.rawObject
      (sig.datum "scope") reqc.excludeDiffValue
    if diffIsInMessageScope then return none
    else return some ("messageScope of the signature in " ++ sigFrom ++
      " does not cover all changed attributes in this update")
  else return some ("Original object must be integrityVerified to allow UPDATE request with scope signature specified in " ++
    sigFrom)

/-- Both key loops. -/
def ResourceVerifier.verifyKeys (self : ResourceVerifier) (sigFrom : String)
    (sig : GeneralSignature) : Go (Except KeyError KeyLoop) := do
  match ← verifyPgpKeys sigFrom (sig.datum "message") (sig.datum "signature")
      self.pgpKeyPathList {} with
  | .error v => return .error v
  | .ok loop =>
      match sig.data.lookup "certificate" with
      | some certificate =>
          verifyX509Keys sigFrom (sig.datum "message") (sig.datum "signature") certificate
            self.x509KeyPathList loop
      | none => return .ok loop

/-- Where a signature was found, for the messages. -/
def GeneralSignature.sigFrom (sig : GeneralSignature) : String :=
  if sig.datum "resourceSignatureUID" = "" then "annotation" else "ResourceSignature"

/-- `ResourceVerifier.Verify`. -/
def ResourceVerifier.verify (self : ResourceVerifier) (sig : GeneralSignature) (reqc : ReqContext)
    (signingProfile : ResourceSigningProfile) : Go Verification := do
  match ← self.matchDenial sig.sigFrom sig reqc signingProfile with
  | some msg => return denyWith msg
  | none =>
      match ← scopeDenial sig.sigFrom sig reqc with
      | some msg => return denyWith msg
      | none =>
          match ← self.verifyKeys sig.sigFrom sig with
          | .error e => return { result := e.result, err := some e.err }
          | .ok loop =>
              -- without a signer, any mounted key that verifies gives the name
              let vsinfo := loop.vsinfo.or (alternativeSigner (sig.datum "message")
                (sig.datum "signature") self.allMountedKeyPathList)
              return {
                result := { error := loop.vcerr, signer := vsinfo }
                verifiedKeyPathList := loop.verifiedKeyPathList }

/-- The signer of a chart; there is no fingerprint. -/
def helmSignerInfo (signer : PgpSigner) : SignerInfo := pgpSignerInfo signer none

/-- `HelmVerifier.Verify`.  It never reports a verified key path. -/
def HelmVerifier.verify (self : HelmVerifier) (sig : GeneralSignature) : Go Verification :=
  let rlsStr := sig.datum "releaseSecret"
  let hrmStr := sig.datum "helmReleaseMetadata"
  if sig.flag "matchRequired" && !Outside.helmMatchReleaseSecret rlsStr hrmStr then
    return denyWith "HelmReleaseMetadata is not identical with the release secret"
  else match Outside.helmReleaseMetadata hrmStr with
    | .error err =>
        let msg := "Error occured in helm chart verification; " ++ err
        return {
          result := { error := some { msg := msg, reason := msg, error := some msg } }
          err := some err }
    | .ok hrmObj => do
        let (helmChart, helmProv) ← Go.deref hrmObj
        let outcome := Outside.helmVerifyChartAndProv helmChart helmProv self.keyPathList
        match outcome.err with
        | some err => return {
            result := { error := some {
              msg := "Error occured in helm chart verification"
              reason := outcome.reasonFail
              error := some err } }
            err := some err }
        | none =>
            if outcome.ok then do
              let signer ← Go.deref outcome.signer
              return { result := { signer := some (helmSignerInfo signer) } }
            else return {
              result := { error := some {
                msg := "Failed to verify helm chart and its provenance"
                reason := outcome.reasonFail } } }

/-- `NewVerifier` and the call of its `Verify`. -/
def verifySignature (signType : SignedResourceType) (dryRunNamespace : String)
    (pgpKeyPathList x509KeyPathList allKeyPathList : List String) (sig : GeneralSignature)
    (reqc : ReqContext) (signingProfile : ResourceSigningProfile) : Go Verification :=
  match signType with
  | .helm => HelmVerifier.verify ⟨pgpKeyPathList⟩ sig
  | _ => ResourceVerifier.verify ⟨pgpKeyPathList, x509KeyPathList, allKeyPathList, dryRunNamespace⟩
      sig reqc signingProfile

/-- No trial of a PGP key errs, and those that verify have a signer. -/
def PgpRuns (message signature : String) (keyPaths : List String) : Prop :=
  ∀ keyPath ∈ keyPaths,
    (Outside.pgpVerifySignature keyPath message signature).err = none ∧
    ((Outside.pgpVerifySignature keyPath message signature).ok = true →
      (Outside.pgpVerifySignature keyPath message signature).signer ≠ none)

/-- **The PGP loop** collects the keys that verify and keeps the signer of the
last of them. -/
theorem verifyPgpKeys_ok_iff (sigFrom message signature : String) (keyPaths : List String)
    (loop : KeyLoop) (vsinfo : Option SignerInfo) (verified : List String) :
    (∃ vcerr, verifyPgpKeys sigFrom message signature keyPaths loop =
        .ok (.ok ⟨vcerr, vsinfo, verified⟩)) ↔
      PgpRuns message signature keyPaths ∧
      vsinfo = ((keyPaths.filterMap (pgpSigner message signature)).getLast?).or loop.vsinfo ∧
      verified = loop.verifiedKeyPathList ++
        keyPaths.filter fun keyPath => (pgpSigner message signature keyPath).isSome := by
  induction keyPaths generalizing loop with
  | nil =>
      simp only [verifyPgpKeys, PgpRuns, List.filterMap_nil, List.filter_nil, List.append_nil]
      constructor
      · rintro ⟨_, h⟩
        cases h
        exact ⟨fun _ h => absurd h List.not_mem_nil, rfl, rfl⟩
      · rintro ⟨_, rfl, rfl⟩
        exact ⟨loop.vcerr, rfl⟩
  | cons keyPath rest ih =>
      have hcons : PgpRuns message signature (keyPath :: rest) ↔
          ((Outside.pgpVerifySignature keyPath message signature).err = none ∧
            ((Outside.pgpVerifySignature keyPath message signature).ok = true →
              (Outside.pgpVerifySignature keyPath message signature).signer ≠ none)) ∧
          PgpRuns message signature rest := List.forall_mem_cons
      rw [hcons, verifyPgpKeys, List.filterMap_cons, List.filter_cons]
      cases herr : (Outside.pgpVerifySignature keyPath message signature).err with
      | some err =>
          constructor
          · rintro ⟨_, h⟩
            cases h
          · rintro ⟨⟨⟨h, _⟩, _⟩, _⟩
            cases h
      | none =>
          cases hok : (Outside.pgpVerifySignature keyPath message signature).ok with
          | false =>
              have hsigner : pgpSigner message signature keyPath = none := by
                rw [pgpSigner, hok]
                rfl
              simp only [hsigner, Bool.false_eq_true, if_false, false_implies, true_and,
                Option.isSome_none, ih]
          | true =>
              cases hs : (Outside.pgpVerifySignature keyPath message signature).signer with
              | none =>
                  constructor
                  · rintro ⟨_, h⟩
                    cases h
                  · rintro ⟨⟨⟨_, h⟩, _⟩, _⟩
                    exact absurd rfl (h rfl)
              | some signer =>
                  have hsigner : pgpSigner message signature keyPath = some (pgpSignerInfo signer
                      (Outside.pgpVerifySignature keyPath message signature).fingerprint) := by
                    rw [pgpSigner, hok, hs]
                    rfl
                  simp only [hsigner, if_true, Go.deref, bind, Except.bind, Option.isSome_some, ih,
                    List.append_assoc, List.singleton_append, ne_eq, reduceCtorEq,
                    not_false_eq_true, implies_true, true_and, List.getLast?_cons]
                  cases (rest.filterMap (pgpSigner message signature)).getLast? <;> rfl

/-- The signer a CA path gives a signature that verifies under the certificate,
if the certificate verifies under the path. -/
def x509Signer (message signature certificate caCertPath : String) : Option SignerInfo :=
  if (Outside.x509VerifyCertificate certificate caCertPath).ok &&
      (Outside.x509VerifySignature message signature (Outside.x509PublicKey certificate)).ok then
    Outside.x509SignerInfo certificate
  else none

/-- No trial of a CA path errs, and a certificate that verifies a signature can
be parsed. -/
def X509Runs (message signature certificate : String) (caCertPaths : List String) : Prop :=
  ∀ caCertPath ∈ caCertPaths,
    (Outside.x509VerifyCertificate certificate caCertPath).err = none ∧
    ((Outside.x509VerifyCertificate certificate caCertPath).ok = true →
      (Outside.x509VerifySignature message signature (Outside.x509PublicKey certificate)).err =
        none ∧
      ((Outside.x509VerifySignature message signature (Outside.x509PublicKey certificate)).ok =
        true → Outside.x509SignerInfo certificate ≠ none))

/-- **The X509 loop** collects the paths that verify; the signer is that of the
last path, verified or not. -/
theorem verifyX509Keys_ok_iff (sigFrom message signature certificate : String)
    (caCertPaths : List String) (loop : KeyLoop) (vsinfo : Option SignerInfo)
    (verified : List String) :
    (∃ vcerr, verifyX509Keys sigFrom message signature certificate caCertPaths loop =
        .ok (.ok ⟨vcerr, vsinfo, verified⟩)) ↔
      X509Runs message signature certificate caCertPaths ∧
      vsinfo = (match caCertPaths.getLast? with
        | some caCertPath => x509Signer message signature certificate caCertPath
        | none => loop.vsinfo) ∧
      verified = loop.verifiedKeyPathList ++ caCertPaths.filter fun caCertPath =>
        (x509Signer message signature certificate caCertPath).isSome := by
  induction caCertPaths generalizing loop with
  | nil =>
      simp only [verifyX509Keys, X509Runs, List.filter_nil, List.append_nil, List.getLast?_nil]
      constructor
      · rintro ⟨_, h⟩
        cases h
        exact ⟨fun _ h => absurd h List.not_mem_nil, rfl, rfl⟩
      · rintro ⟨_, rfl, rfl⟩
        exact ⟨loop.vcerr, rfl⟩
  | cons caCertPath rest ih =>
      -- every turn sets the signer, so after the first the start does not matter
      have hlast : ∀ signer : Option SignerInfo,
          signer = x509Signer message signature certificate caCertPath →
          (match rest.getLast? with
            | some path => x509Signer message signature certificate path
            | none => signer) =
          match (caCertPath :: rest).getLast? with
            | some path => x509Signer message signature certificate path
            | none => loop.vsinfo := by
        rintro signer rfl
        rw [List.getLast?_cons]
        cases rest.getLast? <;> rfl
      have hcons : X509Runs message signature certificate (caCertPath :: rest) ↔ _ ∧
          X509Runs message signature certificate rest := List.forall_mem_cons
      rw [hcons, verifyX509Keys, List.filter_cons]
      cases herr : (Outside.x509VerifyCertificate certificate caCertPath).err with
      | some err =>
          constructor
          · rintro ⟨_, h⟩
            cases h
          · rintro ⟨⟨⟨h, _⟩, _⟩, _⟩
            cases h
      | none =>
          cases hcert : (Outside.x509VerifyCertificate certificate caCertPath).ok with
          | false =>
              have hsigner : x509Signer message signature certificate caCertPath = none := by
                rw [x509Signer, hcert]
                rfl
              simp only [Bool.false_eq_true, if_false, false_implies, true_and, ih,
                hlast none hsigner.symm, hsigner, Option.isSome_none]
          | true =>
              simp only [if_true, true_implies]
              cases hsigErr : (Outside.x509VerifySignature message signature
                  (Outside.x509PublicKey certificate)).err with
              | some err =>
                  constructor
                  · rintro ⟨_, h⟩
                    cases h
                  · rintro ⟨⟨⟨_, h, _⟩, _⟩, _⟩
                    cases h
              | none =>
                  cases hsig : (Outside.x509VerifySignature message signature
                      (Outside.x509PublicKey certificate)).ok with
                  | false =>
                      have hsigner :
                          x509Signer message signature certificate caCertPath = none := by
                        rw [x509Signer, hcert, hsig]
                        rfl
                      simp only [Bool.false_eq_true, if_false, false_implies, true_and, and_self, ih,
                        hlast none hsigner.symm, hsigner, Option.isSome_none]
                  | true =>
                      cases hs : Outside.x509SignerInfo certificate with
                      | none =>
                          constructor
                          · rintro ⟨_, h⟩
                            cases h
                          · rintro ⟨⟨⟨_, _, h⟩, _⟩, _⟩
                            exact absurd rfl (h rfl)
                      | some signer =>
                          have hsigner : x509Signer message signature certificate caCertPath =
                              some signer := by
                            rw [x509Signer, hcert, hsig, hs]
                            rfl
                          simp only [if_true, Go.deref, bind, Except.bind, ih, ne_eq, reduceCtorEq,
                            not_false_eq_true, implies_true, true_and, and_self,
                            hlast (some signer) hsigner.symm, hsigner, Option.isSome_some,
                            List.append_assoc, List.singleton_append]

section Runs

variable (self : ResourceVerifier) (sig : GeneralSignature)

/-- No key of either loop errs. -/
def ResourceVerifier.KeysRun : Prop :=
  PgpRuns (sig.datum "message") (sig.datum "signature") self.pgpKeyPathList ∧
    ∀ certificate ∈ sig.data.lookup "certificate",
      X509Runs (sig.datum "message") (sig.datum "signature") certificate self.x509KeyPathList

/-- The paths that verify. -/
def ResourceVerifier.verifiedPaths : List String :=
  self.pgpKeyPathList.filter (fun keyPath =>
      (pgpSigner (sig.datum "message") (sig.datum "signature") keyPath).isSome) ++
    match sig.data.lookup "certificate" with
    | some certificate => self.x509KeyPathList.filter fun caCertPath =>
        (x509Signer (sig.datum "message") (sig.datum "signature") certificate caCertPath).isSome
    | none => []

/-- The signer the loops end with: of the last X509 path if there is one, else
of the last PGP key that verifies. -/
def ResourceVerifier.lastSigner : Option SignerInfo :=
  let pgpLast := (self.pgpKeyPathList.filterMap
    (pgpSigner (sig.datum "message") (sig.datum "signature"))).getLast?
  match sig.data.lookup "certificate", self.x509KeyPathList.getLast? with
  | some certificate, some caCertPath =>
      x509Signer (sig.datum "message") (sig.datum "signature") certificate caCertPath
  | _, _ => pgpLast

/-- The signer `Verify` reports. -/
def ResourceVerifier.keptSigner : Option SignerInfo :=
  (self.lastSigner sig).or (alternativeSigner (sig.datum "message") (sig.datum "signature")
    self.allMountedKeyPathList)

theorem verifyKeys_ok_iff (sigFrom : String) (vsinfo : Option SignerInfo)
    (verified : List String) :
    (∃ vcerr, self.verifyKeys sigFrom sig = .ok (.ok ⟨vcerr, vsinfo, verified⟩)) ↔
      self.KeysRun sig ∧ vsinfo = self.lastSigner sig ∧ verified = self.verifiedPaths sig := by
  have hpgp := verifyPgpKeys_ok_iff sigFrom (sig.datum "message") (sig.datum "signature")
    self.pgpKeyPathList {}
  simp only [Option.or_none, List.nil_append] at hpgp
  unfold ResourceVerifier.KeysRun ResourceVerifier.lastSigner ResourceVerifier.verifiedPaths
  constructor
  · rintro ⟨vcerr, h⟩
    rw [ResourceVerifier.verifyKeys, Go.bind_eq_ok] at h
    obtain ⟨r, hr, h⟩ := h
    cases r with
    | error e => cases h
    | ok loop =>
        obtain ⟨hruns, hlast, hverified⟩ := (hpgp loop.vsinfo loop.verifiedKeyPathList).1 ⟨_, hr⟩
        cases hcert : sig.data.lookup "certificate" with
        | none =>
            simp only [hcert] at h
            cases h
            refine ⟨⟨hruns, fun _ h => absurd h (Option.not_mem_none _)⟩, hlast, ?_⟩
            simpa only [List.append_nil] using hverified
        | some certificate =>
            simp only [hcert] at h
            obtain ⟨hx, hs, hv⟩ := (verifyX509Keys_ok_iff ..).1 ⟨vcerr, h⟩
            refine ⟨⟨hruns, ?_⟩, ?_, ?_⟩
            · rintro _ h
              cases h
              exact hx
            · rw [hs, hlast]
              cases self.x509KeyPathList.getLast? <;> rfl
            · rw [hv, hverified]
  · rintro ⟨⟨hruns, hx⟩, rfl, rfl⟩
    obtain ⟨vcerr, hr⟩ := (hpgp _ _).2 ⟨hruns, rfl, rfl⟩
    rw [ResourceVerifier.verifyKeys, hr]
    cases hcert : sig.data.lookup "certificate" with
    | none => exact ⟨vcerr, by simp only [List.append_nil]; rfl⟩
    | some certificate =>
        refine (verifyX509Keys_ok_iff ..).2 ⟨hx certificate hcert, ?_, rfl⟩
        cases self.x509KeyPathList.getLast? <;> rfl

/-- **What a verification with a signer has gone through**: no denial, no error
of a key, and the signer and the paths of the key loops. -/
theorem verify_signer_iff (reqc : ReqContext) (signingProfile : ResourceSigningProfile)
    (signer : SignerInfo) (verified : List String) :
    (∃ v, self.verify sig reqc signingProfile = .ok v ∧ v.err = none ∧
        v.result.signer = some signer ∧ v.verifiedKeyPathList = verified) ↔
      self.matchDenial sig.sigFrom sig reqc signingProfile = .ok none ∧
      scopeDenial sig.sigFrom sig reqc = .ok none ∧ self.KeysRun sig ∧
      self.keptSigner sig = some signer ∧ self.verifiedPaths sig = verified := by
  have hkeys := verifyKeys_ok_iff self sig sig.sigFrom
  unfold ResourceVerifier.keptSigner
  constructor
  · rintro ⟨v, h, herr, hsigner, hverified⟩
    rw [ResourceVerifier.verify, Go.bind_eq_ok] at h
    obtain ⟨denial, hmatch, h⟩ := h
    cases denial with
    | some msg =>
        cases h
        cases hsigner
    | none =>
        obtain ⟨denial, hscope, h⟩ := Go.bind_eq_ok.1 h
        cases denial with
        | some msg =>
            cases h
            cases hsigner
        | none =>
            obtain ⟨r, hr, h⟩ := Go.bind_eq_ok.1 h
            cases r with
            | error e =>
                cases h
                cases herr
            | ok loop =>
                cases h
                obtain ⟨hruns, hlast, hpaths⟩ := (hkeys _ _).1 ⟨_, hr⟩
                rw [← hlast, ← hpaths]
                exact ⟨hmatch, hscope, hruns, hsigner, hverified⟩
  · rintro ⟨hmatch, hscope, hruns, hsigner, rfl⟩
    obtain ⟨vcerr, hr⟩ := (hkeys _ _).2 ⟨hruns, rfl, rfl⟩
    rw [ResourceVerifier.verify, hmatch, hscope, hr]
    exact ⟨_, rfl, rfl, hsigner, rfl⟩

end Runs

/-- A chart never has a verified path. -/
theorem HelmVerifier.verify_eq_ok {self : HelmVerifier} {sig : GeneralSignature} {v : Verification}
    (h : self.verify sig = .ok v) : v.verifiedKeyPathList = [] := by
  unfold HelmVerifier.verify at h
  simp only at h
  split at h
  · cases h
    rfl
  split at h
  · cases h
    rfl
  obtain ⟨obj, _, h⟩ := Go.bind_eq_ok.1 h
  split at h
  · cases h
    rfl
  split at h
  · obtain ⟨signer, _, h⟩ := Go.bind_eq_ok.1 h
    cases h
    rfl
  · cases h
    rfl

end Check

end Shield
end IntegrityShield
