import Mathlib
import StackableOperator.V2.Macros.AttributedStringType

/-!
# Names for operators
-/

namespace StackableOperator

namespace V2

/-- The name of a product. A suffix is added to produce a label value. -/
abbrev ProductName : Type :=
  AttributedString [.maxLength 54, .isRfc1123DnsSubdomainName, .isValidLabelValue]

/-- The version of a product. -/
abbrev ProductVersion : Type := AttributedString [.isValidLabelValue]

/-- The name of a cluster. Suffixes are added to produce resource names. -/
abbrev ClusterName : Type :=
  AttributedString [.maxLength 40, .isRfc1035LabelName, .isValidLabelValue]

/-- The name of a controller in an operator. -/
abbrev ControllerName : Type := AttributedString [.isValidLabelValue]

/-- The name of an operator. -/
abbrev OperatorName : Type := AttributedString [.isValidLabelValue]

/-- The name of a role group. -/
abbrev RoleGroupName : Type := AttributedString [.isRfc1123LabelName, .isValidLabelValue]

/-- The name of a role. -/
abbrev RoleName : Type := AttributedString [.isRfc1123LabelName, .isValidLabelValue]

end V2

end StackableOperator
