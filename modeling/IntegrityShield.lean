import IntegrityShield.Base.Strings
import IntegrityShield.Base.Regexp
import IntegrityShield.Base.RegexpParse
import IntegrityShield.Base.RegexpText
import IntegrityShield.Base.RegexpCut
import IntegrityShield.Base.Glob
import IntegrityShield.Base.Csv
import IntegrityShield.Base.Fault
import IntegrityShield.Base.FlatMap
import IntegrityShield.Base.SortSlice
import IntegrityShield.Util.Cache
import IntegrityShield.Mapnode.Value
import IntegrityShield.Mapnode.Key
import IntegrityShield.Mapnode.Ravel
import IntegrityShield.Mapnode.Mask
import IntegrityShield.Mapnode.Diff
import IntegrityShield.Mapnode.DiffLaws
import IntegrityShield.Mapnode.Faithful
import IntegrityShield.Mapnode.KeyExpansion
import IntegrityShield.Mapnode.Removal
import IntegrityShield.Mapnode.Overlay
import IntegrityShield.Mapnode.IgnoreAttrs
import IntegrityShield.Mapnode.MaskLaws
import IntegrityShield.Mapnode.References
import IntegrityShield.Mapnode.DiffExact
import IntegrityShield.Mapnode.KeyNormal
import IntegrityShield.Mapnode.Wildcard
import IntegrityShield.Common.Pattern
import IntegrityShield.Common.Profile
import IntegrityShield.Common.Kustomize
import IntegrityShield.Common.Matching
import IntegrityShield.Common.Policy
import IntegrityShield.Common.SerialNumber
import IntegrityShield.Common.SignerDefinitions
import IntegrityShield.Common.Reqcontext
import IntegrityShield.Common.Attributes
import IntegrityShield.Common.Result
import IntegrityShield.Operator.KeyPathList
import IntegrityShield.Apis.ResourceSigningProfile
import IntegrityShield.Apis.ResourceSignature
import IntegrityShield.Apis.ProfileStatus
import IntegrityShield.Shield.RuleTable
import IntegrityShield.Shield.Protection
import IntegrityShield.Shield.Interference
import IntegrityShield.Shield.CommonRules
import IntegrityShield.Shield.Outside
import IntegrityShield.Shield.Mutation
import IntegrityShield.Shield.IgnoredAttrs
import IntegrityShield.Shield.MaskedObjects
import IntegrityShield.Shield.Contents
import IntegrityShield.Shield.Message
import IntegrityShield.Shield.Document
import IntegrityShield.Shield.ResSigLoader
import IntegrityShield.Shield.Config
import IntegrityShield.Shield.SignVerifier
import IntegrityShield.Shield.Sign
import IntegrityShield.Shield.KustomizedObject
import IntegrityShield.Shield.SignerBinding
import IntegrityShield.Shield.PolicyScope
import IntegrityShield.Shield.KeyPaths
import IntegrityShield.Shield.RunData
import IntegrityShield.Shield.Validation
import IntegrityShield.Shield.Handler
import IntegrityShield.Shield.Patch
import IntegrityShield.Shield.PatchedObject
import IntegrityShield.Shield.PatchedMetadata
import IntegrityShield.Shield.Mediation
import IntegrityShield.Shield.MissingConfig
import IntegrityShield.Shield.SelfProtection
import IntegrityShield.Shield.Targets
import IntegrityShield.Shield.Stages
import IntegrityShield.Shield.IntegrityLabel
import IntegrityShield.Shield.FailSafe
import IntegrityShield.Base.Interleaving
import IntegrityShield.Shield.StatusReport
import IntegrityShield.Shield.Concurrency
import IntegrityShield.Shield.Admission
import IntegrityShield.Shield.Persistence
import IntegrityShield.Helm.Manifest
import IntegrityShield.Helm.Release
import IntegrityShield.Helm.Concurrent
import IntegrityShield.Shield.HelmRelease
import IntegrityShield.Base.ObjectStore
import IntegrityShield.Base.Reconciler
import IntegrityShield.Operator.IntegrityShield
import IntegrityShield.Operator.Resources
import IntegrityShield.Operator.Reconcile
import IntegrityShield.Operator.Stages
import IntegrityShield.Operator.Cleanup
import IntegrityShield.Operator.WebhookOrder
import IntegrityShield.Operator.Convergence
import IntegrityShield.Operator.Drift
import IntegrityShield.Operator.SelfProtection
import IntegrityShield.IshieldServer.Config
import IntegrityShield.IshieldServer.Deployed
import IntegrityShield.Shield.Report
import IntegrityShield.Shield.Custody
import IntegrityShield.Shield.LoaderFreshness
import IntegrityShield.Util.ContextLog
