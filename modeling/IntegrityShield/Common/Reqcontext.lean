/-
# The context of a request

`shield/pkg/common/reqcontext.go`: what the checks read of an admission request,
and `ResourceLabel` and `ResourceAnnotation` of `shield/pkg/common/common.go`.

`NewReqContext` marshals the request and reads the text back with
`github.com/tidwall/gjson`; an `AdmissionRequest` has what that library finds at
a path, and the fields that are read directly.  The two metadata records are
always allocated, so they are no pointers here.
-/

import IntegrityShield.Common.Profile

namespace IntegrityShield
namespace Common

/-- Raw bytes.  Only code outside the model looks into them. -/
abbrev Bytes := String

/-- `ObjectMetadata`: the annotations and the labels of an object. -/
structure ObjectMetadata where
  annotations : Labels := ∅
  labels : Labels := ∅

def resourceIntegrityLabelKey : String := "integrityshield.io/resourceIntegrity"
def signatureAnnotationKey : String := "integrityshield.io/signature"
def messageAnnotationKey : String := "integrityshield.io/message"
def certificateAnnotationKey : String := "integrityshield.io/certificate"
def signatureTypeAnnotationKey : String := "integrityshield.io/signatureType"
def messageScopeAnnotationKey : String := "integrityshield.io/messageScope"
def mutableAttrsAnnotationKey : String := "integrityshield.io/mutableAttrs"

/-- `ResourceLabel.getString` and `ResourceAnnotation.getString`. -/
def getString (values : Labels) (key : String) : String := (values.lookup key).getD ""

/-- `ResourceLabel.IntegrityVerified`. -/
def integrityVerified (labels : Labels) : Bool :=
  getString labels resourceIntegrityLabelKey == "verified"

/-- `SignatureAnnotation`. -/
structure SignatureAnnotation where
  signatureType : String
  signature : String
  certificate : String
  message : String
  messageScope : String
  mutableAttrs : String

/-- `ResourceAnnotation.SignatureAnnotations`. -/
def signatureAnnotations (annotations : Labels) : SignatureAnnotation where
  signature := getString annotations signatureAnnotationKey
  signatureType := getString annotations signatureTypeAnnotationKey
  certificate := getString annotations certificateAnnotationKey
  message := getString annotations messageAnnotationKey
  messageScope := getString annotations messageScopeAnnotationKey
  mutableAttrs := getString annotations mutableAttrsAnnotationKey

/-- `ReqContext`. -/
structure ReqContext where
  resourceScope : String := ""
  dryRun : Bool := false
  rawObject : Option Bytes := none
  rawOldObject : Option Bytes := none
  requestJsonStr : String := ""
  requestUid : String := ""
  «namespace» : String := ""
  name : String := ""
  apiGroup : String := ""
  apiVersion : String := ""
  kind : String := ""
  operation : String := ""
  orgMetadata : ObjectMetadata := {}
  claimedMetadata : ObjectMetadata := {}
  userInfo : String := ""
  objLabels : String := ""
  objMetaName : String := ""
  userName : String := ""
  userGroups : List String := []
  type : String := ""
  objectHashType : String := ""
  objectHash : String := ""

/-- `schema.GroupVersion.String`. -/
def groupVersionString (group version : String) : String :=
  if group = "" then version else group ++ "/" ++ version

namespace ReqContext

/-- `ReqContext.ResourceRef`. -/
def resourceRef (reqc : ReqContext) : ResourceRef where
  name := reqc.name
  «namespace» := reqc.namespace
  kind := reqc.kind
  apiVersion := groupVersionString reqc.apiGroup reqc.apiVersion

/-- `ReqContext.Map`: the fields that are strings, by their names. -/
def map (reqc : ReqContext) : ReqFields :=
  GoMap.writes ∅ [("ResourceScope", reqc.resourceScope), ("RequestJsonStr", reqc.requestJsonStr),
    ("RequestUid", reqc.requestUid), ("Namespace", reqc.namespace), ("Name", reqc.name),
    ("ApiGroup", reqc.apiGroup), ("ApiVersion", reqc.apiVersion), ("Kind", reqc.kind),
    ("Operation", reqc.operation), ("UserInfo", reqc.userInfo), ("ObjLabels", reqc.objLabels),
    ("ObjMetaName", reqc.objMetaName), ("UserName", reqc.userName), ("Type", reqc.type),
    ("ObjectHashType", reqc.objectHashType), ("ObjectHash", reqc.objectHash)]

/-- `ReqContext.GroupVersion`. -/
def groupVersion (reqc : ReqContext) : String := groupVersionString reqc.apiGroup reqc.apiVersion

/-- `ReqContext.IsUpdateRequest`. -/
def isUpdateRequest (reqc : ReqContext) : Bool := reqc.operation == "UPDATE"

/-- `ReqContext.IsCreateRequest`. -/
def isCreateRequest (reqc : ReqContext) : Bool := reqc.operation == "CREATE"

/-- `ReqContext.IsDeleteRequest`. -/
def isDeleteRequest (reqc : ReqContext) : Bool := reqc.operation == "DELETE"

/-- `ReqContext.ExcludeDiffValue`. -/
def excludeDiffValue (reqc : ReqContext) : Bool := reqc.kind == "Secret"

end ReqContext

/-- `admv1.AdmissionRequest`, with what `gjson` finds at a path of its JSON text:
a value as a string, an array, a map. -/
structure AdmissionRequest where
  uid : String := ""
  kind : String := ""
  «namespace» : String := ""
  dryRun : Option Bool := some false
  object : Option Bytes := none
  oldObject : Option Bytes := none
  jsonStr : String := ""
  value : String → Option String := fun _ => none
  array : String → List String := fun _ => []
  entries : String → Labels := fun _ => ∅

/-- `ParsedRequest.getValue`. -/
def AdmissionRequest.getValue (req : AdmissionRequest) (path : String) : String :=
  (req.value path).getD ""

/-- `NewReqContext`.  A request without a `dryRun` is dereferenced nil. -/
def newReqContext (req : AdmissionRequest) : Go ReqContext := do
  let name := req.getValue "name"
  let name := if name = "" then req.getValue "metadata.name" else name
  let name := if name = "" then req.getValue "object.metadata.name" else name
  let ns := req.getValue "namespace"
  let ns := if ns = "" then req.getValue "object.metdata.namespace" else ns
  let dryRun ← Go.deref req.dryRun
  return {
    resourceScope := if ns = "" then "Cluster" else "Namespaced"
    dryRun := dryRun
    rawObject := req.object
    rawOldObject := req.oldObject
    requestJsonStr := req.jsonStr
    requestUid := req.uid
    «namespace» := ns
    name := name
    apiGroup := req.getValue "kind.group"
    apiVersion := req.getValue "kind.version"
    kind := req.getValue "kind.kind"
    operation := req.getValue "operation"
    orgMetadata := ⟨req.entries "oldObject.metadata.annotations",
      req.entries "oldObject.metadata.labels"⟩
    claimedMetadata := ⟨req.entries "object.metadata.annotations",
      req.entries "object.metadata.labels"⟩
    userInfo := req.getValue "userInfo"
    objLabels := req.getValue "object.metadata.labels"
    objMetaName := req.getValue "object.metadata.name"
    userName := req.getValue "userInfo.username"
    userGroups := req.array "userInfo.groups"
    type := req.getValue "object.type" }

end Common
end IntegrityShield
