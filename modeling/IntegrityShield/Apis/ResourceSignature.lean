/-
# Signatures and signer configurations as resources

`shield/pkg/apis/resourcesignature/v1alpha1/types.go` and
`shield/pkg/apis/signerconfig/v1alpha1/types.go`.
-/

import IntegrityShield.Common.Policy
import IntegrityShield.Common.Profile

namespace IntegrityShield
namespace Apis

open Common

/-- `SignItem`. -/
structure SignItem where
  message : String := ""
  messageScope : String := ""
  mutableAttrs : String := ""
  signature : String := ""
  certificate : String := ""
  type : String := ""

/-- `ResourceSignature`. -/
structure ResourceSignature where
  uid : String := ""
  labels : Labels := ∅
  data : List (Option SignItem) := []

/-- `SignerConfig`, the resource: its `Spec.Config`. -/
structure SignerConfigResource where
  config : Option SignerConfig := none

end Apis
end IntegrityShield
