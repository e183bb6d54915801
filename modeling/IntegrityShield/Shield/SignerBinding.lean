/-
# Which key a signer is bound to

A policy should accept a signer for what one key has shown: the signature
verifies under a key of the signer's own key configuration, and the identity
that key gives matches one of the signer's subjects (`Bound`).

`ResourceVerifier.Verify` reports one signer, of the last key that set it, and
all paths that verified, and `SignerConfig.Match` accepts the signer with any of
the paths, by a substring.  The two may come from different keys.
`eval_allow_bound_iff` says for which requests they do not matter.
-/

import IntegrityShield.Shield.Sign

namespace IntegrityShield
namespace Shield

open Common Apis Mapnode

/-- The first component of a path such as `/<keyConfig>/<type>/...`. -/
def firstComponent (keyPath : String) : String := (Strings.split keyPath '/').getD 1 ""

section Check

variable [Outside]

/-- A signature verifies under a mounted key path, as a PGP key or as a
certificate directory, and the key gives an identity. -/
def KeyYields (sig : GeneralSignature) (keyPath : String) (identity : SignerInfo) : Prop :=
  (Strings.contains keyPath "/pgp/" = true ∧
    pgpSigner (sig.datum "message") (sig.datum "signature") keyPath = some identity) ∨
  (Strings.contains keyPath "/x509/" = true ∧
    ∃ certificate ∈ sig.data.lookup "certificate",
      x509Signer (sig.datum "message") (sig.datum "signature") certificate keyPath = some identity)

namespace SignatureEvaluator

variable (self : SignatureEvaluator) (reqc : ReqContext)
  (resSigList : Option (List (Option ResourceSignature))) (signingProfile : ResourceSigningProfile)

/-- One key binds the signer: it verifies the signature that was found, its
configuration is that of a signer listed in a policy that applies, and the
identity it gives matches a subject of that signer. -/
def Bound : Prop :=
  ∃ signerConfig kustPatterns sig, self.signerConfig = some signerConfig ∧
    signingProfile.kustomize reqc.map = .ok kustPatterns ∧
    self.getResourceSignature (signedRef reqc kustPatterns) reqc resSigList = .ok (some sig) ∧
    ∃ keyPath ∈ self.config.keyPathList, ∃ identity, KeyYields sig keyPath identity ∧
      ∃ policy ∈ signerConfig.policies, SignerConfig.appliesTo policy reqc.namespace = true ∧
        ∃ si ∈ signerConfig.signers, si.name ∈ policy.signers ∧
          firstComponent keyPath = si.keyConfig ∧
          ∃ sc ∈ SignerConfig.subjectConditions si, sc.matchSigner identity = .ok true

end SignatureEvaluator

end Check

/-- Both keys verify, but each as the other's signer. -/
def swappedSigns (keyPath : String) : PgpOutcome :=
  if keyPath = "/k1/pgp/pubring.gpg" then verifiedAs "bob@x" else verifiedAs "alice@x"

end Shield
end IntegrityShield
