import Mathlib
import StackableOperator.V2.Macros.AttributedStringType

/-!
# Kubernetes resource names
-/

namespace StackableOperator

namespace V2

/-- The regular expression `^[-._a-zA-Z0-9]+$`. -/
def matchesDataKey (cs : List Char) : Bool :=
  !cs.isEmpty && cs.all fun c => c == '-' || c == '.' || c == '_' || c.isAlphanum

/-- The attributes of the keys of ConfigMaps and Secrets. -/
def dataKeyAttributes : List Attribute :=
  [.minLength 1, .maxLength Validation.rfc1123SubdomainMaxLength,
    .regex "^[-._a-zA-Z0-9]+$" (.ok matchesDataKey)]

/-- The name of a ClusterRole. -/
abbrev ClusterRoleName : Type := AttributedString [.isRfc1123DnsSubdomainName]

/-- The name of a ConfigMap. -/
abbrev ConfigMapName : Type := AttributedString [.isRfc1123DnsSubdomainName]

/-- The key for a ConfigMap. -/
abbrev ConfigMapKey : Type := AttributedString dataKeyAttributes

/-- The name of a DaemonSet. -/
abbrev DaemonSetName : Type := AttributedString [.isRfc1123DnsSubdomainName]

/-- The name of a Deployment. -/
abbrev DeploymentName : Type := AttributedString [.isRfc1123LabelName]

/-- The name of a Listener. -/
abbrev ListenerName : Type := AttributedString [.isRfc1123DnsSubdomainName]

/-- The name of a RoleBinding. -/
abbrev RoleBindingName : Type := AttributedString [.isRfc1123DnsSubdomainName]

/-- The name of a Secret. -/
abbrev SecretName : Type := AttributedString [.isRfc1123DnsSubdomainName]

/-- The key for a Secret. -/
abbrev SecretKey : Type := AttributedString dataKeyAttributes

/-- The name of a ServiceAccount. -/
abbrev ServiceAccountName : Type := AttributedString [.isRfc1123DnsSubdomainName]

/-- The name of a Service. -/
abbrev ServiceName : Type := AttributedString [.isRfc1035LabelName, .isValidLabelValue]

/-- The name of a StatefulSet. A dash and ten digits are appended to it for a label. -/
abbrev StatefulSetName : Type :=
  AttributedString [.maxLength (Validation.rfc1123LabelMaxLength - 1 - 10), .isRfc1123LabelName,
    .isValidLabelValue]

/-- The name of a Namespace. -/
abbrev NamespaceName : Type := AttributedString [.isRfc1123LabelName, .isValidLabelValue]

/-- A UID, which is parsed as a UUID. -/
abbrev Uid (tryParse : String → Except String Unit) : Type :=
  AttributedString [.isUid tryParse, .isValidLabelValue]

end V2

end StackableOperator
