import StackableOperator.Config.Fragment
import StackableOperator.ClusterResources.Overrides
import StackableOperator.RoleUtils
import StackableOperator.Status.ConditionRun
import StackableOperator.V2.ConfigOverrides
import StackableOperator.V2.RoleUtils
import StackableOperator.VersionedMacros.TryConvert
import StackableOperator.Webhook.Server
import StackableOperator.Commons.RandomSecretCreation
import StackableOperator.ConfigOverrides
import StackableOperator.ForMathlib.Neighbors
import StackableOperator.ForMathlib.OneShot
import StackableOperator.V2.Builder.Pod.EnvVarOrder
import StackableOperator.V2.ClusterResources
import StackableOperator.VersionedMacros.Changes
import StackableOperator.VersionedMacros.Enum
import StackableOperator.VersionedMacros.Field
import StackableOperator.VersionedMacros.FieldChain
import StackableOperator.VersionedMacros.TrackedDowngrade
import StackableOperator.Builder.Meta
import StackableOperator.Builder.Pdb
import StackableOperator.Builder.Pod.Builder
import StackableOperator.Builder.Pod.Probe
import StackableOperator.Commons.Networking
import StackableOperator.Commons.Rbac
import StackableOperator.Commons.SecretClass
import StackableOperator.Commons.TlsVerification
import StackableOperator.Crd.Authentication.Ldap
import StackableOperator.Crd.ConnectionVolumes
import StackableOperator.Crd.GitSync.CommandLine
import StackableOperator.Crd.GitSync.CaInfos
import StackableOperator.Crd.GitSync.Consistent
import StackableOperator.Crd.Listener.Listeners
import StackableOperator.Crd.Listener.Overrides
import StackableOperator.ForMathlib.RegularExpression
import StackableOperator.K8sVersion.ApiVersion
import StackableOperator.V2.InfallibleBuilders
import StackableOperator.K8sVersion.Arithmetic
import StackableOperator.Shared.DurationRoundTrip
import StackableOperator.V2.DefaultConfigOverrides
import StackableOperator.V2.Builder.Pod.EnvVarClosure
import StackableOperator.V2.Builder.Pod.EnvVarReferences
import StackableOperator.V2.Builder.Pod.EnvVarExpansion
import StackableOperator.VersionedMacros.PathVariables
import StackableOperator.VersionedMacros.VersionList
import StackableOperator.RemoveRegex
import StackableOperator.Config.MergeAlgebra
import StackableOperator.DeepMerger.Crd
import StackableOperator.ClusterResources.DryRun
import StackableOperator.Kvp.TryFromIter
import StackableOperator.Kvp.KeyTrimmed
import StackableOperator.V2.RoleGroupNames
import StackableOperator.Memory
import StackableOperator.Kvp.Selector
import StackableOperator.VersionedMacros.TrackedUpgrade
import StackableOperator.Validation.Grammar
import StackableOperator.V2.FlaskConfigWriter
import StackableOperator.Client.FeatureGates
import StackableOperator.Builder.Pod.Resources
import StackableOperator.Builder.Pod.CallSequences
import StackableOperator.Commons.ProductImageSelection
import StackableOperator.V2.Macros.AttributedStringSchema
import StackableOperator.V2.ConfigFileWriter
import StackableOperator.Commons.IpAddrFromStr
import StackableOperator.Commons.HostNameFromStr
import StackableOperator.VersionedMacros.TrackedRoundTrip
import StackableOperator.Validation.DnsLabel
import StackableOperator.Logging.K8sEvents
import StackableOperator.Readers.Xml
import StackableOperator.ProductLogging.Log4j
import StackableOperator.ProductLogging.Logback
import StackableOperator.Readers.UriAuthority
import StackableOperator.Commons.Url
import StackableOperator.Commons.UrlHost
import StackableOperator.Commons.PlainUrls
import StackableOperator.DatabaseConnections.Databases
import StackableOperator.Crd.Authentication.Oidc
import StackableOperator.ConnectionUrls
import StackableOperator.Status.Workloads
import StackableOperator.Crd.GitSync.V1alpha1
import StackableOperator.Machines.ShellJobs
import StackableOperator.Utils.Bash
import StackableOperator.Machines.Interleaving
import StackableOperator.ClusterResources.Reconcile
import StackableOperator.Machines.WatchedFiles
import StackableOperator.ProductLogging.VectorShutdown
import StackableOperator.ProductLogging.Spec
import StackableOperator.Kvp.RoleSelectors
import StackableOperator.ClusterResources.Stopping
