/-
# Policies of other namespaces

`ConcreteSignatureEvaluator.Eval` reads the signer policies twice: for the keys
that may verify a request, and for the policy that accepts its signer.  Both loops
pass over a policy that does not apply to the namespace of the request, so the keys
do not depend on it (`getCandidatePubkeys_insert`).  The second loop, though, goes
through the signers of every policy before it asks whether the policy applies, and
a subject with a serial number is compared with the serial number of the signer,
which a PGP signer does not have.  `eval_insert_policy_iff` says when a policy of
another namespace leaves the answer as it is.
-/

import IntegrityShield.Shield.Sign

namespace IntegrityShield

open Common Apis

namespace Common
namespace SignerConfig

variable (c : SignerConfig) (before after : List SignerConfigCondition)
  {policy : SignerConfigCondition} {ns : String}

/-- The configuration with other policies. -/
def withPolicies (policies : List SignerConfigCondition) : SignerConfig :=
  { c with policies := policies }

/-- A policy is for other namespaces: it is for the cluster and there is a
namespace, or the other way round, or the namespace is not among its own or among
those it excludes. -/
def IsForOthers (policy : SignerConfigCondition) (ns : String) : Prop :=
  ns = "" ∧ policy.scope ≠ "Cluster" ∨
  ns ≠ "" ∧ (policy.scope = "Cluster" ∨ matchWithPatternArray ns policy.namespaces = false ∨
    matchWithPatternArray ns policy.excludeNamespaces = true)

instance (policy : SignerConfigCondition) (ns : String) : Decidable (IsForOthers policy ns) :=
  inferInstanceAs (Decidable (_ ∨ _))

theorem appliesTo_of_isForOthers (h : IsForOthers policy ns) : appliesTo policy ns = false := by
  rw [← Bool.not_eq_true, appliesTo_iff]
  rintro (⟨hempty, hcluster⟩ | ⟨hns, hscope, hin, hex⟩)
  · rcases h with ⟨_, hscope⟩ | ⟨hns, _⟩
    · exact hscope hcluster
    · exact hns hempty
  · rcases h with ⟨hempty, _⟩ | ⟨_, hcluster | hout | hexcluded⟩
    · exact hns hempty
    · exact hscope hcluster
    · rw [hout] at hin
      cases hin
    · rw [hexcluded] at hex
      cases hex

/-- Such a policy gives no candidate keys. -/
theorem getCandidatePubkeys_insert (h : IsForOthers policy ns) (keyPathList : List String)
    (kind : KeyKind) :
    (c.withPolicies (before ++ policy :: after)).getCandidatePubkeys keyPathList ns kind =
      (c.withPolicies (before ++ after)).getCandidatePubkeys keyPathList ns kind := by
  have hkeys : (c.withPolicies (before ++ policy :: after)).candidateKeyConfigs ns =
      (c.withPolicies (before ++ after)).candidateKeyConfigs ns := by
    have hfilter : (policy :: after).filter (fun spc => appliesTo spc ns) =
        after.filter fun spc => appliesTo spc ns :=
      List.filter_cons_of_neg (Bool.eq_false_iff.1 (appliesTo_of_isForOthers h))
    simp only [candidateKeyConfigs, withPolicies, List.filter_append, hfilter]
  rw [getCandidatePubkeys, getCandidatePubkeys, hkeys]

section

variable [UndefinedBigInt] (signer : SignerInfo) (verifiedKeyPathList : List String)

theorem matchConfig_withPolicies (policies : List SignerConfigCondition) :
    (c.withPolicies policies).matchConfig ns signer verifiedKeyPathList =
      policies.findM? fun spc => do
        let signerMatched ← c.matchSigners spc signer verifiedKeyPathList
        return appliesTo spc ns && signerMatched := rfl

/-- The search goes through the policies before a point, and if none of them
matches, through those after it. -/
theorem matchConfig_append :
    (c.withPolicies (before ++ after)).matchConfig ns signer verifiedKeyPathList =
      (c.withPolicies before).matchConfig ns signer verifiedKeyPathList >>= fun found =>
        found.elim ((c.withPolicies after).matchConfig ns signer verifiedKeyPathList)
          fun policy => .ok (some policy) := by
  simp only [matchConfig_withPolicies]
  exact Go.findM_append ..

/-- The search goes through the signers of such a policy, and then on. -/
theorem matchConfig_cons (h : IsForOthers policy ns) :
    (c.withPolicies (policy :: after)).matchConfig ns signer verifiedKeyPathList = (do
      let _ ← c.matchSigners policy signer verifiedKeyPathList
      (c.withPolicies after).matchConfig ns signer verifiedKeyPathList) := by
  rw [matchConfig_withPolicies, matchConfig_withPolicies, List.findM?, appliesTo_of_isForOthers h]
  cases c.matchSigners policy signer verifiedKeyPathList with
  | error e => rfl
  | ok signerMatched => rfl

/-- **Where such a policy is felt**: its signers are come to and fault, and the
policies after it do not. -/
theorem matchConfig_insert_iff (h : IsForOthers policy ns) :
    Option.isSome <$> (c.withPolicies (before ++ policy :: after)).matchConfig ns signer
        verifiedKeyPathList =
      Option.isSome <$> (c.withPolicies (before ++ after)).matchConfig ns signer
        verifiedKeyPathList ↔
    ((c.withPolicies before).matchConfig ns signer verifiedKeyPathList = .ok none →
      c.ComparesNil policy signer verifiedKeyPathList →
      (c.withPolicies after).matchConfig ns signer verifiedKeyPathList =
        .error .nilDeref) := by
  rw [matchConfig_append c before (policy :: after), matchConfig_append c before after,
    matchConfig_cons c after signer verifiedKeyPathList h]
  cases hbefore : (c.withPolicies before).matchConfig ns signer verifiedKeyPathList with
  | error e => exact ⟨fun _ hnone => (by cases hnone), fun _ => rfl⟩
  | ok found =>
      cases found with
      | some found => exact ⟨fun _ hnone => (by cases hnone), fun _ => rfl⟩
      | none =>
          have hfault := c.matchSigners_eq_error_iff policy signer verifiedKeyPathList .nilDeref
          cases hsigners : c.matchSigners policy signer verifiedKeyPathList with
          | ok signerMatched =>
              refine ⟨fun _ _ hnil => ?_, fun _ => rfl⟩
              rw [hfault.2 ⟨rfl, hnil⟩] at hsigners
              cases hsigners
          | error e =>
              obtain ⟨rfl, hnil⟩ := (c.matchSigners_eq_error_iff policy signer
                verifiedKeyPathList e).1 hsigners
              cases (c.withPolicies after).matchConfig ns signer verifiedKeyPathList with
              | error e' =>
                  change (Except.error .nilDeref : Go Bool) = .error e' ↔ _
                  constructor
                  · intro heq _ _
                    rw [Except.error.inj heq]
                  · intro himp
                    rw [Except.error.inj (himp rfl hnil)]
              | ok found => exact ⟨fun heq => (by cases heq), fun himp => (by cases himp rfl hnil)⟩

/-- Without serial numbers that ask for a number nothing is compared in vain. -/
theorem not_comparesNil
    (h : ∀ si ∈ c.signers, ∀ subject ∈ si.subjects, ¬AsksNumber subject.serialNumber)
    (policy : SignerConfigCondition) : ¬c.ComparesNil policy signer verifiedKeyPathList := by
  rintro ⟨_, signerName, _, _, _, conditions, hlookup, sc, hsc, _, _, hasks⟩
  rw [getSignerMap, GoMap.lookup_writes] at hlookup
  obtain ⟨si, hsi, heq⟩ := List.mem_map.1 (GoMap.mem_of_lastAt hlookup)
  obtain ⟨_, rfl⟩ := Prod.mk.inj heq
  obtain ⟨subject, hsubject, rfl⟩ := List.mem_map.1 hsc
  exact h si hsi subject hsubject hasks

end

end SignerConfig
end Common

namespace Shield

section Check

variable [Outside]

namespace SignatureEvaluator

variable (self : SignatureEvaluator)

/-- What `SignerConfig.Match` is called with: the signer that was reported, the
paths that verified, and the UID for the result. -/
structure Reported where
  signer : SignerInfo
  verifiedKeyPathList : List String
  rsigUID : String

/-- `Eval` up to the call of `SignerConfig.Match`, with the candidate keys. -/
def evalToMatch (pgpPubkeys x509Pubkeys : List String) (reqc : ReqContext)
    (resSigList : Option (List (Option ResourceSignature)))
    (signingProfile : ResourceSigningProfile) : Go (SignatureEvalResult ⊕ Reported) := do
  let kustPatterns ← signingProfile.kustomize reqc.map
  match ← self.getResourceSignature (signedRef reqc kustPatterns) reqc resSigList with
  | none => return .inl (denied ReasonCode.noSig.message "" none)
  | some rsig => do
      let rsigUID := rsig.datum "resourceSignatureUID"
      let v ← verifySignature rsig.signType (self.dryRunNamespace reqc) pgpPubkeys x509Pubkeys
        self.config.keyPathList rsig reqc signingProfile
      match v.err with
      | some err => do
          let checkError ← Go.deref v.result.error
          return .inl (denied ("Error during signature verification; " ++ checkError.reason ++
            "; " ++ err) rsigUID (some err))
      | none =>
          if keyLoadingError pgpPubkeys x509Pubkeys then
            return .inl (denied ReasonCode.noValidKeyring.message rsigUID none)
          else match v.result.signer with
            | none =>
                let detail := match v.result.error with
                  | some e => "; " ++ e.reason
                  | none => ""
                return .inl (denied (ReasonCode.invalidSig.message ++ detail) rsigUID none)
            | some signer => return .inr ⟨signer, v.verifiedKeyPathList, rsigUID⟩

/-- The end of `Eval`. -/
def matchReported (signerConfig : SignerConfig) (ns : String) (reported : Reported) :
    Go SignatureEvalResult := do
  match ← signerConfig.matchConfig ns reported.signer reported.verifiedKeyPathList with
  | some policy => return allowed reported.signer policy reported.rsigUID
  | none => return { denied (ReasonCode.noMatchSignerConfig.message ++
        "; This resource is signed by " ++ reported.signer.getNameWithFingerprint)
        reported.rsigUID none with
      signer := some reported.signer
      signerName := reported.signer.getName }

/-- **`Eval` in two parts**: the signer configuration goes into the first one by its
candidate keys alone. -/
theorem eval_eq_evalToMatch {signerConfig : SignerConfig}
    (hconfig : self.signerConfig = some signerConfig) (reqc : ReqContext)
    (resSigList : Option (List (Option ResourceSignature)))
    (signingProfile : ResourceSigningProfile) :
    self.eval reqc resSigList signingProfile = (do
      match ← self.evalToMatch
          (signerConfig.getCandidatePubkeys self.config.keyPathList reqc.namespace .pgp)
          (signerConfig.getCandidatePubkeys self.config.keyPathList reqc.namespace .x509)
          reqc resSigList signingProfile with
      | .inl r => return r
      | .inr reported => matchReported signerConfig reqc.namespace reported) := by
  rw [eval, evalToMatch]
  cases signingProfile.kustomize reqc.map with
  | error e => rfl
  | ok kustPatterns =>
      simp only [bind, Except.bind]
      cases self.getResourceSignature (signedRef reqc kustPatterns) reqc resSigList with
      | error e => rfl
      | ok found =>
          cases found with
          | none => rfl
          | some rsig =>
              simp only [hconfig, Go.deref, evalSignature, bind, Except.bind]
              cases verifySignature rsig.signType (self.dryRunNamespace reqc)
                  (signerConfig.getCandidatePubkeys self.config.keyPathList reqc.namespace .pgp)
                  (signerConfig.getCandidatePubkeys self.config.keyPathList reqc.namespace .x509)
                  self.config.keyPathList rsig reqc signingProfile with
              | error e => rfl
              | ok v =>
                  simp only
                  cases v.err with
                  | some err =>
                      simp only
                      cases v.result.error with
                      | none => rfl
                      | some e => rfl
                  | none =>
                      simp only
                      split_ifs
                      · rfl
                      · cases v.result.signer with
                        | none => rfl
                        | some signer => rfl

/-- The decision at the end is whether a policy was found. -/
theorem allow_matchReported (signerConfig : SignerConfig) (ns : String) (reported : Reported) :
    SignatureEvalResult.allow <$> matchReported signerConfig ns reported =
      Option.isSome <$> signerConfig.matchConfig ns reported.signer
        reported.verifiedKeyPathList := by
  rw [matchReported]
  cases signerConfig.matchConfig ns reported.signer reported.verifiedKeyPathList with
  | error e => rfl
  | ok found =>
      cases found with
      | none => rfl
      | some policy => rfl

/-- **When a policy for other namespaces changes nothing.**  Inserting it anywhere
leaves the candidate keys as they are, and the answer of `Eval` as well, precisely
if one of these holds: no signer is reported; a policy before it matches, or
faults; its signers compare no serial number that is not there; or the policies
after it fault all the same. -/
theorem eval_insert_policy_iff (c : SignerConfig) (before after : List SignerConfigCondition)
    (policy : SignerConfigCondition) (reqc : ReqContext)
    (resSigList : Option (List (Option ResourceSignature)))
    (signingProfile : ResourceSigningProfile)
    (hothers : SignerConfig.IsForOthers policy reqc.namespace) :
    ((∀ keyPathList kind,
        (c.withPolicies (before ++ policy :: after)).getCandidatePubkeys keyPathList
            reqc.namespace kind =
          (c.withPolicies (before ++ after)).getCandidatePubkeys keyPathList reqc.namespace
            kind) ∧
      SignatureEvalResult.allow <$> { self with
          signerConfig := some (c.withPolicies (before ++ policy :: after)) }.eval reqc
            resSigList signingProfile =
        SignatureEvalResult.allow <$> { self with
          signerConfig := some (c.withPolicies (before ++ after)) }.eval reqc
            resSigList signingProfile) ↔
    ∀ reported, self.evalToMatch
        ((c.withPolicies (before ++ after)).getCandidatePubkeys self.config.keyPathList
          reqc.namespace .pgp)
        ((c.withPolicies (before ++ after)).getCandidatePubkeys self.config.keyPathList
          reqc.namespace .x509)
        reqc resSigList signingProfile = .ok (.inr reported) →
      (c.withPolicies before).matchConfig reqc.namespace reported.signer
        reported.verifiedKeyPathList = .ok none →
      c.ComparesNil policy reported.signer reported.verifiedKeyPathList →
      (c.withPolicies after).matchConfig reqc.namespace reported.signer
        reported.verifiedKeyPathList = .error .nilDeref := by
  have hkeys := c.getCandidatePubkeys_insert before after hothers
  rw [and_iff_right hkeys, eval_eq_evalToMatch _ rfl, eval_eq_evalToMatch _ rfl]
  simp only [hkeys]
  change SignatureEvalResult.allow <$> (self.evalToMatch _ _ reqc resSigList signingProfile >>= _) =
    SignatureEvalResult.allow <$> (self.evalToMatch _ _ reqc resSigList signingProfile >>= _) ↔ _
  cases self.evalToMatch
      ((c.withPolicies (before ++ after)).getCandidatePubkeys self.config.keyPathList
        reqc.namespace .pgp)
      ((c.withPolicies (before ++ after)).getCandidatePubkeys self.config.keyPathList
        reqc.namespace .x509) reqc resSigList signingProfile with
  | error e => exact ⟨fun _ _ h => (by cases h), fun _ => rfl⟩
  | ok stage =>
      cases stage with
      | inl r => exact ⟨fun _ _ h => (by cases h), fun _ => rfl⟩
      | inr reported =>
          change SignatureEvalResult.allow <$> matchReported _ _ _ =
            SignatureEvalResult.allow <$> matchReported _ _ _ ↔ _
          rw [allow_matchReported, allow_matchReported, c.matchConfig_insert_iff _ _ _ _ hothers]
          constructor
          · intro h reported' heq
            obtain rfl := Sum.inr.inj (Except.ok.inj heq)
            exact h
          · exact fun h => h reported rfl

end SignatureEvaluator

end Check

/-- The policy of the namespace `ns` for `alice`. -/
def alicePolicy : SignerConfigCondition where
  scope := "Namespaced"
  namespaces := ["ns"]
  signers := ["alice"]

/-- A policy of the namespace `other` for one signer. -/
def otherPolicy (signer : String) : SignerConfigCondition where
  scope := "Namespaced"
  namespaces := ["other"]
  signers := [signer]

theorem eval_insert_policy_bob :
    letI := Outside.signing configMapJson aliceSigns
    SignatureEvalResult.allow <$> { twoSignersEvaluator with
        signerConfig := some (twoSigners.withPolicies [otherPolicy "bob", alicePolicy]) }.eval
          configMapCreate none kindProfile =
      SignatureEvalResult.allow <$> { twoSignersEvaluator with
        signerConfig := some (twoSigners.withPolicies [alicePolicy]) }.eval
          configMapCreate none kindProfile := by
  let _ := Outside.signing configMapJson aliceSigns
  refine ((twoSignersEvaluator.eval_insert_policy_iff twoSigners [] [alicePolicy]
    (otherPolicy "bob") configMapCreate none kindProfile ?_).2 ?_).2
  · decide +kernel
  · intro reported _ _ hnil
    refine absurd hnil (twoSigners.not_comparesNil _ _ ?_ _)
    decide +kernel

/-- The signer `alice`, and a signer whose certificate is known by its number. -/
def aliceAndDevice : SignerConfig where
  signers := [{ name := "alice", keyConfig := "k1", subjects := [{ email := "alice@x" }] },
    { name := "device", keyConfig := "k2", subjects := [{ serialNumber := "12:34" }] }]

/-- **A policy of another namespace stops a request.**  Without it the config map
that `alice` has signed is allowed; with it the serial number of `alice` is followed,
and there is none. -/
theorem eval_insert_policy_device :
    letI := Outside.signing configMapJson aliceSigns
    SignerConfig.IsForOthers (otherPolicy "device") configMapCreate.namespace ∧
    (∃ r, { twoSignersEvaluator with
      signerConfig := some (aliceAndDevice.withPolicies [alicePolicy]) }.eval configMapCreate none
        kindProfile = .ok r ∧ r.allow = true) ∧
    { twoSignersEvaluator with
      signerConfig := some (aliceAndDevice.withPolicies [otherPolicy "device", alicePolicy]) }.eval
        configMapCreate none kindProfile = .error .nilDeref := by
  let _ := Outside.signing configMapJson aliceSigns
  refine ⟨?_, ?_, ?_⟩
  · decide +kernel
  · exact Go.exists_of_toOption_map (by decide +kernel)
  · have hfault : (match { twoSignersEvaluator with
        signerConfig := some (aliceAndDevice.withPolicies [otherPolicy "device",
          alicePolicy]) }.eval configMapCreate none kindProfile with
        | .ok _ => false
        | .error e => decide (e = .nilDeref)) = true := by
      decide +kernel
    split at hfault
    · cases hfault
    · rename_i e he
      rw [he, of_decide_eq_true hfault]

end Shield
end IntegrityShield
