/-
# Code outside the model

The libraries and services the checks call, as one class: the decoders and
encoders of JSON and YAML, base64 and gzip, the key files and the verification
of signatures under them (`shield/pkg/util/sign`), the dry runs and patches the
API server computes (`shield/pkg/util/kubeutil`), and the helm plugin
(`shield/pkg/plugins/helm`).  All that is assumed of them here is that the empty
string is the base64 of no bytes; a result that needs more has it as a
hypothesis.
-/

import IntegrityShield.Apis.ResourceSignature
import IntegrityShield.Apis.ResourceSigningProfile
import IntegrityShield.Common.Reqcontext
import IntegrityShield.Mapnode.DiffLaws

namespace IntegrityShield
namespace Shield

open Common Apis Mapnode

/-- `pgp.Signer`. -/
structure PgpSigner where
  email : String
  name : String
  comment : String

/-- The results of `pgp.VerifySignature`. -/
structure PgpOutcome where
  ok : Bool
  reasonFail : String := ""
  signer : Option PgpSigner := none
  fingerprint : Option String := none
  err : Option String := none

/-- The results of `x509.VerifyCertificate` and `x509.VerifySignature`. -/
structure X509Outcome where
  ok : Bool
  reasonFail : String := ""
  err : Option String := none

/-- The results of `helm.VerifyChartAndProv`. -/
structure HelmOutcome where
  ok : Bool
  signer : Option PgpSigner := none
  reasonFail : String := ""
  err : Option String := none

/-- The code outside the model. -/
class Outside extends Regexp.UnicodeTables, R3labsDiff, UndefinedBigInt where
  /-- `json.Unmarshal` into a map; `null` leaves it empty. -/
  jsonUnmarshal : Bytes → Except String JsonMap
  /-- `Decode` of a decoder with `DisallowUnknownFields`, into a pointer to a
  `ResourceSigningProfile`; `null` leaves it nil. -/
  decodeResourceSigningProfile : Bytes → Except String (Option ResourceSigningProfile)
  /-- The same into a `ResourceSignature`. -/
  decodeResourceSignature : Bytes → Except String (Option ResourceSignature)
  /-- The same into a `SignerConfig`. -/
  decodeSignerConfig : Bytes → Except String (Option SignerConfigResource)
  /-- The same into a `ShieldConfig`, which nothing is read of. -/
  decodeShieldConfig : Bytes → Except String Unit
  /-- The same into a `HelmReleaseMetadata`, which nothing is read of. -/
  decodeHelmReleaseMetadata : Bytes → Except String Unit
  /-- `yaml.Unmarshal` into a map. -/
  yamlUnmarshal : Bytes → Except String JsonMap
  /-- `json.Marshal` of a value. -/
  jsonMarshal : Json → Except String String
  /-- `json.Marshal` of a `*Node`. -/
  jsonMarshalNode : Node → Except String String
  /-- `yaml.Marshal`. -/
  yamlMarshal : Json → Except String Bytes
  /-- What `YAMLToJSONDecoder.Decode` leaves in its argument, call by call, up to
  the first error. -/
  yamlDocuments : Bytes → List Json
  /-- `base64.StdEncoding.DecodeString`. -/
  base64Decode : String → Option Bytes
  base64Decode_empty : base64Decode "" = some ""
  /-- What `gzip.NewReader` reads. -/
  gunzip : Bytes → Option Bytes
  /-- `pgp.VerifySignature` with a key path, a message and a signature. -/
  pgpVerifySignature : String → Bytes → Bytes → PgpOutcome
  /-- The number of keys `pgp.LoadKeyRing` loads. -/
  pgpLoadKeyRing : String → ℕ
  /-- The number of certificates `x509.LoadCertDir` loads. -/
  x509LoadCertDir : String → ℕ
  /-- `x509.VerifyCertificate` with a certificate and a path. -/
  x509VerifyCertificate : Bytes → String → X509Outcome
  /-- `x509.NewSignerInfoFromCert` of the parsed certificate; a certificate that
  does not parse is nil, which it dereferences. -/
  x509SignerInfo : Bytes → Option SignerInfo
  /-- `x509.GetPublicKeyFromCertificate`. -/
  x509PublicKey : Bytes → Bytes
  /-- `x509.VerifySignature` with a message, a signature and a public key. -/
  x509VerifySignature : Bytes → Bytes → Bytes → X509Outcome
  /-- `kubeutil.DryRunCreate` in the case of `MatchMessage` given by its number. -/
  dryRunCreate : ℕ → Bytes → String → Except String Bytes
  /-- The second result of `kubeutil.GetApplyPatchBytes`. -/
  getApplyPatchBytes : Bytes → String → Except String Bytes
  /-- `kubeutil.StrategicMergePatch`. -/
  strategicMergePatch : Option Bytes → Bytes → Except String Bytes
  /-- `helm.FindReleaseSecret` of a namespace, a kind, a name and an object. -/
  helmFindReleaseSecret : String → String → String → Option Bytes → Except String (Option Bytes)
  /-- `helm.GetHelmReleaseMetadata`: the strings, and the error. -/
  helmGetHelmReleaseMetadata : Bytes → List String × Option String
  /-- `helm.MatchReleaseSecret`. -/
  helmMatchReleaseSecret : String → String → Bool
  /-- The chart and the provenance of a decoded `HelmReleaseMetadata`. -/
  helmReleaseMetadata : Bytes → Except String (Option (String × String))
  /-- `helm.VerifyChartAndProv`. -/
  helmVerifyChartAndProv : String → String → List String → HelmOutcome

/-- Libraries that decode nothing, verify nothing and answer every call with an
error. -/
@[reducible] def Outside.silent : Outside where
  toUnicodeTables := Regexp.UnicodeTables.empty
  toR3labsDiff := R3labsDiff.pointwise
  undefined _ := 0
  jsonUnmarshal _ := .error "invalid"
  decodeResourceSigningProfile _ := .error "invalid"
  decodeResourceSignature _ := .error "invalid"
  decodeSignerConfig _ := .error "invalid"
  decodeShieldConfig _ := .error "invalid"
  decodeHelmReleaseMetadata _ := .error "invalid"
  yamlUnmarshal _ := .error "invalid"
  jsonMarshal _ := .error "unsupported"
  jsonMarshalNode _ := .error "unsupported"
  yamlMarshal _ := .error "unsupported"
  yamlDocuments _ := []
  base64Decode str := if str = "" then some "" else none
  base64Decode_empty := rfl
  gunzip _ := none
  pgpVerifySignature _ _ _ := { ok := false }
  pgpLoadKeyRing _ := 0
  x509LoadCertDir _ := 0
  x509VerifyCertificate _ _ := { ok := false }
  x509SignerInfo _ := none
  x509PublicKey _ := ""
  x509VerifySignature _ _ _ := { ok := false }
  dryRunCreate _ _ _ := .error "forbidden"
  getApplyPatchBytes _ _ := .error "forbidden"
  strategicMergePatch _ _ := .error "invalid"
  helmFindReleaseSecret _ _ _ _ := .error "not found"
  helmGetHelmReleaseMetadata _ := ([], some "not found")
  helmMatchReleaseSecret _ _ := false
  helmReleaseMetadata _ := .error "invalid"
  helmVerifyChartAndProv _ _ _ := { ok := false }

variable [Outside]

/-- `NewFromBytes`, with the error; no bytes at all are not JSON. -/
def newFromBytes (raw : Option Bytes) : Except String Node :=
  (Outside.jsonUnmarshal (raw.getD "")).map newFromMap

/-- `NewFromYamlBytes`. -/
def newFromYamlBytes (raw : Bytes) : Except String Node :=
  (Outside.yamlUnmarshal raw).map newFromMap

theorem newFromBytes_of_jsonUnmarshal {raw : Option Bytes} {obj : JsonMap}
    (h : Outside.jsonUnmarshal (raw.getD "") = .ok obj) :
    newFromBytes raw = .ok (newFromMap obj) := by
  rw [newFromBytes, h]
  rfl

theorem newFromYamlBytes_of_yamlUnmarshal {raw : Bytes} {obj : JsonMap}
    (h : Outside.yamlUnmarshal raw = .ok obj) : newFromYamlBytes raw = .ok (newFromMap obj) := by
  rw [newFromYamlBytes, h]
  rfl

/-- The node a caller that ignores the error goes on with. -/
def nodeOrEmpty : Except String Node → Node
  | .ok n => n
  | .error _ => .null

/-- `Node.ToJson`. -/
def toJson (n : Node) : String :=
  match n with
  | .null => "null"
  | .value v => v.sprintS
  | n => ((Outside.jsonMarshal n.interface).toOption).getD ""

/-- `Node.ToYaml`.  A node without value and children has its value
dereferenced. -/
def toYaml (n : Node) : Go Bytes :=
  match n with
  | .null => .error .nilDeref
  | .value v => .ok v.sprintS
  | n => .ok (((Outside.yamlMarshal n.interface).toOption).getD "")

/-- `Node.GetString`. -/
def getNodeString (t : Node) (concatKey : String) : String :=
  match t.getNode concatKey with
  | none => ""
  | some (.value (.str s)) => s
  | some (.value v) => ((Outside.jsonMarshal (.scalar v)).toOption).getD ""
  | some n => ((Outside.jsonMarshalNode n).toOption).getD ""

/-- The value of one side of a difference; nil is written `null`. -/
def sideJson : Option Scalar → Json
  | some v => .scalar v
  | none => .null

/-- `DiffResult.String`. -/
def diffString (dr : DiffResult) : String :=
  if dr.size = 0 then ""
  else
    let items := dr.items.map fun d => Json.obj [("key", .scalar (.str d.key)),
      ("values", .obj [("before", sideJson d.before), ("after", sideJson d.after)])]
    ((Outside.jsonMarshal (.obj [("items", .arr items)])).toOption).getD ""

/-- `DiffResult.KeyString`. -/
def diffKeyString (dr : DiffResult) : String :=
  let items := dr.items.map fun d => Json.obj [("key", .scalar (.str d.key))]
  ((Outside.jsonMarshal (.obj [("items", .arr items)])).toOption).getD ""

end Shield
end IntegrityShield
