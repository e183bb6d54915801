/-
# Format validation of the shield's own resources

`shield/pkg/shield/utilValidation.go`.

A decoder that refuses unknown fields reads the object of the request; the
decoded pointer is nil for the text `null`.  Two of the kinds are compared with
an API version instead of a kind, so no `ShieldConfig` and no
`HelmReleaseMetadata` is ever validated.
-/

import IntegrityShield.Shield.Outside

namespace IntegrityShield
namespace Shield

open Common Apis

def profileCustomResourceKind : String := "ResourceSigningProfile"
def signatureCustomResourceKind : String := "ResourceSignature"
def signerConfigCustomResourceKind : String := "SignerConfig"
def shieldConfigCustomResourceAPIVersion : String := "apis.integrityshield.io/v1alpha1"
def helmReleaseMetadataCustomResourceAPIVersion : String := "apis.integrityshield.io/v1alpha1"

def resSigLabelApiVer : String := "integrityshield.io/sigobject-apiversion"
def resSigLabelKind : String := "integrityshield.io/sigobject-kind"
def resSigLabelTime : String := "integrityshield.io/sigtime"

/-- The required labels that an object does not have, each in quotes. -/
def missingLabels (labels : Labels) : List String :=
  ([resSigLabelApiVer, resSigLabelKind, resSigLabelTime].filter
    fun key => (labels.lookup key).isNone).map fun key => "\"" ++ key ++ "\""

/-- The error of a `ResourceSignature` that has been decoded. -/
def signatureFormatError (data : ResourceSignature) : Option String :=
  let missing := missingLabels data.labels
  if 1 < data.data.length then
    some ("Only 1 signature data can be defined in 1 " ++ signatureCustomResourceKind ++ ".")
  else if 0 < missing.length then
    some ("Required label " ++ Strings.join missing ", " ++ " is missing.")
  else none

/-- The error of a `SignerConfig` that has been decoded. -/
def signerConfigFormatError (data : SignerConfigResource) : Option String :=
  match data.config with
  | none => some "`spec.config` in SignerConfig is empty."
  | some config =>
      if config.signers.length = 0 then some "`spec.config.signers` in SignerConfig is empty."
      else
        let i := config.signers.findIdx? fun signer => signer.subjects.length == 0
        i.map fun i =>
          "`spec.config.signers[" ++ Strings.itoa i ++ "].subjects` in SignerConfig is empty."

section

variable [Outside] (reqc : ReqContext)

/-- `ValidateResourceSigningProfile`: its error, nil if the profile is valid. -/
def validateResourceSigningProfile (shieldNamespace : String) : Go (Option String) :=
  match Outside.decodeResourceSigningProfile (reqc.rawObject.getD "") with
  | .error e => return some e
  | .ok data =>
      -- the pointer is followed only in the second half of the conjunction
      if reqc.namespace = shieldNamespace then return none
      else do
        let data ← Go.deref data
        if data.spec.targetNamespaceSelector.isSome then
          return some (profileCustomResourceKind ++
            ".Spec.TargetNamespaceSelector is allowed only for " ++ profileCustomResourceKind ++
            " in " ++ shieldNamespace ++ ".")
        else return none

/-- `ValidateResourceSignature`. -/
def validateResourceSignature : Go (Option String) :=
  match Outside.decodeResourceSignature (reqc.rawObject.getD "") with
  | .error e => return some e
  | .ok data => signatureFormatError <$> Go.deref data

/-- `ValidateShieldConfig`. -/
def validateShieldConfig : Option String :=
  match Outside.decodeShieldConfig (reqc.rawObject.getD "") with
  | .error e => some e
  | .ok _ => none

/-- `ValidateSignerConfig`. -/
def validateSignerConfig : Go (Option String) :=
  match Outside.decodeSignerConfig (reqc.rawObject.getD "") with
  | .error e => return some e
  | .ok data => signerConfigFormatError <$> Go.deref data

/-- `ValidateHelmReleaseMetadata`. -/
def validateHelmReleaseMetadata : Option String :=
  match Outside.decodeHelmReleaseMetadata (reqc.rawObject.getD "") with
  | .error e => some e
  | .ok _ => none

/-- What `ValidateResource` makes of an error. -/
def validated : Option String → Bool × String
  | none => (true, "")
  | some e => (false, "Format validation failed; " ++ e)

/-- `ValidateResource`. -/
def validateResource (shieldNamespace : String) : Go (Bool × String) :=
  if reqc.isDeleteRequest then return (true, "")
  else if reqc.kind = profileCustomResourceKind then
    validated <$> validateResourceSigningProfile reqc shieldNamespace
  else if reqc.kind = signatureCustomResourceKind then
    validated <$> validateResourceSignature reqc
  else if reqc.kind = shieldConfigCustomResourceAPIVersion then
    return validated (validateShieldConfig reqc)
  else if reqc.kind = signerConfigCustomResourceKind then
    validated <$> validateSignerConfig reqc
  else if reqc.kind = helmReleaseMetadataCustomResourceAPIVersion then
    return validated (validateHelmReleaseMetadata reqc)
  else return (true, "")

end

end Shield
end IntegrityShield
