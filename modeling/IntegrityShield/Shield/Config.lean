/-
# The configuration of the shield

`shield/pkg/shield/config/shieldconfig.go`, as far as the checks and the
handler read it.
-/

import IntegrityShield.Common.Reqcontext

namespace IntegrityShield
namespace Shield

open Common

/-- `IntegrityShieldMode`; any other text is `unknown`, like the empty one. -/
inductive IntegrityShieldMode where
  | unknown
  | enforce
  | detect
deriving DecidableEq

/-- `IShieldResourceCondition`. -/
structure IShieldResourceCondition where
  operatorResources : List (Option ResourceRef) := []
  serverResources : List (Option ResourceRef) := []
  operatorServiceAccount : String := ""

/-- `LogScopeConfig`. -/
structure LogScopeConfig where
  enabled : Bool := false
  inScope : List (Option RequestPatternWithNamespace) := []
  ignore : List (Option RequestPatternWithNamespace) := []

/-- `LoggingScopeConfig`. -/
structure LoggingScopeConfig where
  consoleLog : Option LogScopeConfig := none
  contextLog : Option LogScopeConfig := none

/-- `PluginConfig`. -/
structure PluginConfig where
  name : String := ""
  enabled : Bool := false

/-- `ShieldConfig`; `Patch.Enabled` is `patch`. -/
structure ShieldConfig where
  patch : Option Bool := none
  log : Option LoggingScopeConfig := none
  inScopeNamespaceSelector : Option NamespaceSelector := none
  ignore : List RequestPattern := []
  mode : IntegrityShieldMode := .unknown
  plugin : List PluginConfig := []
  commonProfile : Option CommonProfile := none
  «namespace» : String := ""
  keyPathList : List String := []
  iShieldResourceCondition : Option IShieldResourceCondition := none
  iShieldAdminUserGroup : String := ""
  iShieldAdminUserName : String := ""
  iShieldServerUserName : String := ""

/-- `ResourceRef.EqualsWithoutVersionCheck`. -/
def equalsWithoutVersionCheck (self ref : ResourceRef) : Bool :=
  self.name == ref.name && self.namespace == ref.namespace && self.kind == ref.kind

/-- The loop of `IsOperatorResource` and `IsServerResource`. -/
def isListedResource (refs : List (Option ResourceRef)) (ref : ResourceRef) : Go Bool :=
  refs.anyM fun refi => do
    let refi ← Go.deref refi
    return equalsWithoutVersionCheck refi ref

/-- `IShieldResourceCondition.IsOperatorResource`. -/
def IShieldResourceCondition.isOperatorResource (self : IShieldResourceCondition)
    (ref : ResourceRef) : Go Bool :=
  isListedResource self.operatorResources ref

/-- `IShieldResourceCondition.IsServerResource`. -/
def IShieldResourceCondition.isServerResource (self : IShieldResourceCondition)
    (ref : ResourceRef) : Go Bool :=
  isListedResource self.serverResources ref

/-- `LogScopeConfig.IsInScope`, without the level. -/
def LogScopeConfig.isInScope (sc : LogScopeConfig) (reqc : ReqContext) : Go Bool :=
  if !sc.enabled then return false
  else do
    let inScope ← sc.inScope.anyM fun v => RequestPatternWithNamespace.matchLoose v reqc.map
    let ignored ← sc.ignore.anyM fun v => RequestPatternWithNamespace.matchLoose v reqc.map
    return inScope && !ignored

namespace ShieldConfig

/-- `ShieldConfig.PatchEnabled`. -/
def patchEnabled (ec : ShieldConfig) (reqc : ReqContext) : Bool :=
  if reqc.kind = "Policy" ∧ reqc.apiGroup = "policy.open-cluster-management.io" then false
  else ec.patch.getD false

/-- `ShieldConfig.ConsoleLogEnabled`, without the level. -/
def consoleLogEnabled (ec : ShieldConfig) (reqc : ReqContext) : Go Bool := do
  let log ← Go.deref ec.log
  let consoleLog ← Go.deref log.consoleLog
  consoleLog.isInScope reqc

/-- `ShieldConfig.ContextLogEnabled`. -/
def contextLogEnabled (ec : ShieldConfig) (reqc : ReqContext) : Go Bool := do
  let log ← Go.deref ec.log
  let contextLog ← Go.deref log.contextLog
  contextLog.isInScope reqc

/-- `ShieldConfig.GetEnabledPlugins`. -/
def getEnabledPlugins (ec : ShieldConfig) : GoMap String Bool :=
  GoMap.writes ∅ ((ec.plugin.filter PluginConfig.enabled).map fun plg => (plg.name, true))

end ShieldConfig

end Shield
end IntegrityShield
