/-
# Results of the checks

The result types and the reason codes of `shield/pkg/common/common.go`.
-/

import IntegrityShield.Common.Policy

namespace IntegrityShield
namespace Common

/-- The reason codes, in the order of the constants. -/
inductive ReasonCode where
  | internal
  | validationFail
  | ruleMatch
  | validSig
  | verifiedOwner
  | updateBySA
  | verifiedSA
  | noMutation
  | iShieldAdmin
  | ignoredSA
  | notProtected
  | ignoreRuleMatched
  | blockIShieldResourceOperation
  | notVerified
  | skipDelete
  | aborted
  | breakGlass
  | detection
  | invalidSig
  | noSig
  | noValidKeyring
  | noMatchSignerConfig
  | unexpected
  | error
deriving DecidableEq

/-- The messages of `ReasonCodeMap`; `REASON_NOT_VERIFIED` has no entry. -/
def ReasonCode.message : ReasonCode → String
  | .internal => "internal request"
  | .validationFail => "Format validation failed"
  | .ruleMatch => "allowed by rule"
  | .validSig => "allowed by valid signer's signature"
  | .verifiedOwner => "owned by verified owner"
  | .updateBySA => "updated by creator"
  | .verifiedSA => "operated by verified sa"
  | .noMutation => "allowed because no mutation found"
  | .iShieldAdmin => "ishield admin operation"
  | .ignoredSA => "ignored sa"
  | .notProtected => "not protected"
  | .ignoreRuleMatched => "ignore rule matched"
  | .blockIShieldResourceOperation =>
      "Direct access to Integrity Shield resource is prohibited. To update them, please update configurations in Integrity Shield CR."
  | .notVerified => ""
  | .skipDelete => "skip delete request"
  | .aborted => "aborted"
  | .breakGlass => "allowed by breakglass mode"
  | .detection => "allowed by detection mode"
  | .invalidSig =>
      "Signature verification is required for this request, but failed to verify signature"
  | .noSig =>
      "Signature verification is required for this request, but no signature is found. Please attach a valid signature."
  | .noValidKeyring =>
      "Signature verification is required for this request, but no verification keys are correctly loaded. Please set valid key secrets for verification or contact Integrity Shield admins."
  | .noMatchSignerConfig =>
      "Signature verification is required for this request, but no signer config matches with this resource. Please configure SignerConfig for this resource or contact Integrity Shield admins."
  | .unexpected => "unexpected"
  | .error => "error"

/-- `CheckError`. -/
structure CheckError where
  msg : String := ""
  reason : String := ""
  error : Option String := none

/-- `CheckError.MakeMessage`. -/
def CheckError.makeMessage (self : CheckError) : String :=
  match self.error with
  | some e => if self.reason ≠ "" then self.reason else e
  | none => if self.reason ≠ "" then self.reason else self.msg

/-- `MutationEvalResult`. -/
structure MutationEvalResult where
  isMutated : Bool := false
  diff : String := ""
  filtered : String := ""
  checked : Bool := false
  error : Option CheckError := none

/-- `SignatureEvalResult`.  `MatchedSignerConfig` is the policy itself, not its
JSON text. -/
structure SignatureEvalResult where
  signer : Option SignerInfo := none
  signerName : String := ""
  checked : Bool := false
  allow : Bool := false
  matchedSignerConfig : Option SignerConfigCondition := none
  resourceSignatureUID : String := ""
  error : Option CheckError := none

end Common
end IntegrityShield
