/-
# Rules and request patterns

`shield/pkg/common/profile.go`, and `NamespaceSelector` and `ResourceRef` of
`shield/pkg/common/common.go`.

The lists of a profile are lists of pointers, and a `null` in a custom resource
is a nil pointer in them (`none`).  A nil pattern matches nothing, except that
in exact mode a cluster-scoped request has its name looked up before the test
for nil.  `RequestPattern.match` goes over the fields of the struct in their
order of declaration and looks each one up under its own name in the request
fields; a field the request does not have is empty.
-/

import IntegrityShield.Base.FlatMap
import IntegrityShield.Base.RegexpParse
import IntegrityShield.Common.Pattern

namespace IntegrityShield
namespace Common

/-- The fields of a request by name: `map[string]string`. -/
abbrev ReqFields := GoMap String String

/-- `reqFields[name]`: empty when it is not there. -/
def ReqFields.get (reqFields : ReqFields) (name : String) : String :=
  (reqFields.lookup name).getD ""

/-- `RequestPattern`. -/
structure RequestPattern where
  scope : Option String := none
  apiGroup : Option String := none
  apiVersion : Option String := none
  kind : Option String := none
  name : Option String := none
  operation : Option String := none
  userName : Option String := none
  userGroup : Option String := none
deriving DecidableEq

/-- The fields of the struct, as reflection lists them. -/
def RequestPattern.fields (p : RequestPattern) : List (String × Option String) :=
  [("Scope", p.scope), ("ApiGroup", p.apiGroup), ("ApiVersion", p.apiVersion), ("Kind", p.kind),
    ("Name", p.name), ("Operation", p.operation), ("UserName", p.userName),
    ("UserGroup", p.userGroup)]

/-- The scope `match` reads off the request: `Namespaced` unless it is `Cluster`. -/
def requestScope (reqFields : ReqFields) : String :=
  if reqFields.lookup "ResourceScope" = some "Cluster" then "Cluster" else "Namespaced"

/-- The set fields of the struct against the request, the name exactly in exact
mode. -/
def RequestPattern.matchFields (p : RequestPattern) (reqFields : ReqFields)
    (exactMatchForName : Bool) : Bool :=
  let patterns := p.fields.filterMap fun f => f.2.map (f.1, ·)
  decide (0 < patterns.length) && patterns.all fun (fieldName, pattern) =>
    let reqValue := reqFields.get fieldName
    if fieldName = "Name" ∧ exactMatchForName then exactMatch pattern reqValue
    else matchPattern pattern reqValue

/-- `RequestPattern.match`.  In exact mode a cluster-scoped request makes it read
`self.Name` first. -/
def RequestPattern.matchRequest (self : Option RequestPattern) (reqFields : ReqFields)
    (exactMatchForName : Bool) : Go Bool :=
  if exactMatchForName ∧ requestScope reqFields = "Cluster" then do
    let p ← Go.deref self
    return if p.name = none then false else p.matchFields reqFields exactMatchForName
  else
    match self with
    | none => .ok false
    | some p => .ok (p.matchFields reqFields exactMatchForName)

/-- `RequestPattern.Match`. -/
def RequestPattern.matchLoose (self : Option RequestPattern) (reqFields : ReqFields) : Go Bool :=
  RequestPattern.matchRequest self reqFields false

/-- `RequestPattern.StrictMatch`. -/
def RequestPattern.strictMatch (self : Option RequestPattern) (reqFields : ReqFields) : Go Bool :=
  RequestPattern.matchRequest self reqFields true

/-- `Rule`. -/
structure Rule where
  matches_ : List (Option RequestPattern) := []
  exclude : List (Option RequestPattern) := []
deriving DecidableEq

/-- The common body of `MatchWithRequest` and `StrictMatchWithRequest`: a match
pattern fits and no exclude pattern does. -/
def Rule.matchBy (strict : Bool) (self : Option Rule) (reqFields : ReqFields) : Go Bool := do
  let rule ← Go.deref self
  let matched ← rule.matches_.anyM fun m => RequestPattern.matchRequest m reqFields strict
  if matched then
    let excluded ← rule.exclude.anyM fun ex => RequestPattern.matchRequest ex reqFields strict
    return !excluded
  else return false

/-- `Rule.MatchWithRequest`. -/
def Rule.matchWithRequest (self : Option Rule) (reqFields : ReqFields) : Go Bool :=
  Rule.matchBy false self reqFields

/-- `Rule.StrictMatchWithRequest`. -/
def Rule.strictMatchWithRequest (self : Option Rule) (reqFields : ReqFields) : Go Bool :=
  Rule.matchBy true self reqFields

/-- `AttrsPattern`. -/
structure AttrsPattern where
  matches_ : List (Option RequestPattern) := []
  attrs : List String := []
deriving DecidableEq

/-- `AttrsPattern.MatchWith`. -/
def AttrsPattern.matchWith (self : Option AttrsPattern) (reqFields : ReqFields) : Go Bool := do
  let pattern ← Go.deref self
  pattern.matches_.anyM fun reqPattern => RequestPattern.matchLoose reqPattern reqFields

/-- `CommonProfile`. -/
structure CommonProfile where
  ignoreRules : List (Option Rule) := []
  ignoreAttrs : List (Option AttrsPattern) := []
deriving DecidableEq

/-- `RequestPatternWithNamespace`. -/
structure RequestPatternWithNamespace where
  requestPattern : Option RequestPattern := none
  «namespace» : Option String := none
deriving DecidableEq

/-- `RequestPatternWithNamespace.Match`. -/
def RequestPatternWithNamespace.matchLoose (self : Option RequestPatternWithNamespace)
    (reqFields : ReqFields) : Go Bool := do
  let p ← Go.deref self
  if p.namespace = none ∧ p.requestPattern = none then return false
  let nsMatched := match p.namespace with
    | some ns => matchPattern ns (reqFields.get "Namespace")
    | none => true
  let otherMatched ← match p.requestPattern with
    | some rp => RequestPattern.matchLoose (some rp) reqFields
    | none => .ok true
  return nsMatched && otherMatched

/-- The labels of an object. -/
abbrev Labels := GoMap String String

/-- `v1.Namespace`, as far as it is read. -/
structure Namespace where
  name : String
  labels : Labels := ∅

/-- `NamespaceSelector`.  A label selector is given by the labels it selects
(`kubeutil.MatchLabels`; one that is malformed selects nothing). -/
structure NamespaceSelector where
  labelSelector : Option (Labels → Bool) := none
  include_ : List String := []
  exclude : List String := []

/-- `NamespaceSelector.MatchNamespaceName`. -/
def NamespaceSelector.matchNamespaceName (self : NamespaceSelector) (nsName : String) : Bool :=
  matchWithPatternArray nsName self.include_ && !matchWithPatternArray nsName self.exclude

/-- `NamespaceSelector.MatchNamespace`. -/
def NamespaceSelector.matchNamespace (self : NamespaceSelector) (ns : Namespace) : Bool :=
  let labelMatched := match self.labelSelector with
    | some selector => selector ns.labels
    | none => false
  if self.include_.length = 0 ∧ self.exclude.length = 0 then labelMatched
  else self.matchNamespaceName ns.name

/-- `ResourceRef`. -/
structure ResourceRef where
  name : String
  «namespace» : String
  kind : String
  apiVersion : String
deriving DecidableEq

/-- `KustomizePattern`. -/
structure KustomizePattern where
  matches_ : List (Option RequestPattern) := []
  namePrefix : Option String := none
  nameSuffix : Option String := none
  allowNamespaceChange : Bool := false
deriving DecidableEq

/-- `KustomizePattern.MatchWith`. -/
def KustomizePattern.matchWith (self : Option KustomizePattern) (reqFields : ReqFields) :
    Go Bool := do
  let pattern ← Go.deref self
  pattern.matches_.anyM fun reqPattern => RequestPattern.matchLoose reqPattern reqFields

section

variable [Regexp.UnicodeTables]

/-- The wildcard branch of `overrideName`: every match of the pattern, its dots
escaped and its stars widened, is cut out of the name. -/
def cutWildcard (pattern name : String) : String :=
  let pattern := Strings.replaceAll (Strings.replaceAll pattern "." "\\.") "*" ".*"
  match Regexp.parse pattern with
  | some re => if re.matchString name then re.replaceAllString name "" else name
  | none => name

/-- `KustomizePattern.overrideName`. -/
def KustomizePattern.overrideName (self : KustomizePattern) (ref : ResourceRef) : ResourceRef :=
  let name := match self.namePrefix with
    | none => ref.name
    | some namePrefix =>
        if Strings.hasPrefix ref.name namePrefix then
          String.ofList (ref.name.toList.drop namePrefix.length)
        else if Strings.contains namePrefix "*" then cutWildcard namePrefix ref.name
        else ref.name
  let name := match self.nameSuffix with
    | none => name
    | some nameSuffix =>
        if Strings.hasSuffix name nameSuffix then
          String.ofList (name.toList.take (name.length - nameSuffix.length))
        else if Strings.contains nameSuffix "*" then cutWildcard nameSuffix name
        else name
  { ref with name := name }

/-- `KustomizePattern.overrideNamespace`. -/
def KustomizePattern.overrideNamespace (self : KustomizePattern) (ref : ResourceRef) :
    ResourceRef :=
  if self.allowNamespaceChange then { ref with «namespace» := "*" } else ref

/-- `KustomizePattern.Override`. -/
def KustomizePattern.override (self : KustomizePattern) (ref : ResourceRef) : ResourceRef :=
  self.overrideNamespace (self.overrideName ref)

end

end Common
end IntegrityShield
