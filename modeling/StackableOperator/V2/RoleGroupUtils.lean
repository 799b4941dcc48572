import Mathlib
import StackableOperator.Kvp.KeyFromStr
import StackableOperator.Utils.LengthEnforcement
import StackableOperator.V2.Types.Kubernetes
import StackableOperator.V2.Types.Operator

/-!
# Names of role-group resources

The names of the resources of a role group are made of the names of the cluster, the role and the
role group, shortened if they are too long, and of a suffix. A function panics (`none`) if the
result is not accepted by the type of the name. `exists_names` says that this does not happen.
-/

namespace StackableOperator

namespace V2

namespace RoleGroupUtils

open Kvp Validation

/-! ### The model of the source -/

/-- The name of a role group, with the names of its cluster and role. Suffixes are added to produce
resource names. -/
abbrev QualifiedRoleGroupName : Type :=
  AttributedString [.maxLength 52, .isRfc1035LabelName, .isValidLabelValue]

/-- The names that the names of role-group resources are made of. -/
structure ResourceNames where
  clusterName : ClusterName
  roleName : RoleName
  roleGroupName : RoleGroupName

namespace ResourceNames

def concatenatedName (self : ResourceNames) : String :=
  self.clusterName.1 ++ "-" ++ self.roleName.1 ++ "-" ++ self.roleGroupName.1

def qualifiedMaxLength : ℕ :=
  Attribute.maxLengthOf [.maxLength 52, .isRfc1035LabelName, .isValidLabelValue]

def hashLength : ℕ := 6

/-- The three names with dashes in between, shortened if they are too long. -/
def qualifiedRoleGroupName (hexDigest : String → String) (self : ResourceNames) :
    Option QualifiedRoleGroupName := do
  let concatenatedName := self.concatenatedName
  guard (isAscii concatenatedName)
  let sanitizedName ←
    ensureMaxStringLength hexDigest concatenatedName qualifiedMaxLength hashLength
  guard (sanitizedName.utf8ByteSize ≤ qualifiedMaxLength)
  (AttributedString.fromStr _ sanitizedName).toOption

/-- The name of a resource: the qualified name with a suffix. -/
def resourceName (attributes : List Attribute) (suffix : String) (hexDigest : String → String)
    (self : ResourceNames) : Option (AttributedString attributes) := do
  let qualified ← self.qualifiedRoleGroupName hexDigest
  (AttributedString.fromStr attributes (qualified.1 ++ suffix)).toOption

def roleGroupConfigMap : (String → String) → ResourceNames → Option ConfigMapName :=
  resourceName _ ""

def daemonSetName : (String → String) → ResourceNames → Option DaemonSetName :=
  resourceName _ ""

def deploymentName : (String → String) → ResourceNames → Option DeploymentName :=
  resourceName _ ""

def statefulSetName : (String → String) → ResourceNames → Option StatefulSetName :=
  resourceName _ ""

def headlessServiceName : (String → String) → ResourceNames → Option ServiceName :=
  resourceName _ "-headless"

def metricsServiceName : (String → String) → ResourceNames → Option ServiceName :=
  resourceName _ "-metrics"

def listenerName : (String → String) → ResourceNames → Option ListenerName :=
  resourceName _ ""

end ResourceNames

/-! ### Labels -/

section Labels

variable {s : List Char}

/-- A label has the grammar of label values. -/
theorem matchesName_of_label (h : matchesLowercaseRfc1123Label s = true) :
    matchesName s = true := by
  refine isSegment_mono isAlphanum_of_isLowerAlphanum (fun c hc => ?_)
    isAlphanum_of_isLowerAlphanum h
  rw [isLowerAlphanumOrDash, Bool.or_eq_true, beq_iff_eq] at hc
  obtain rfl | hc := hc
  · rfl
  · rw [isNameChar, isAlphanum_of_isLowerAlphanum c hc]
    rfl

theorem toNat_lt_of_label (h : matchesLowercaseRfc1123Label s = true) :
    ∀ c ∈ s, c.toNat < 128 := fun c hc =>
  toNat_lt_of_isNameChar (isNameChar_of_matchesName (matchesName_of_label h) c hc)

theorem isAscii_of_label {s : String} (h : matchesLowercaseRfc1123Label s.toList = true) :
    isAscii s = true := by
  rw [isAscii, List.all_eq_true]
  exact fun c hc => decide_eq_true (toNat_lt_of_label h c hc)

/-- A short label is a label value. -/
theorem labelValue_of_label {s : String} (h : matchesLowercaseRfc1123Label s.toList = true)
    (hsize : s.utf8ByteSize ≤ labelValueMaxLen) : LabelValue.check s = .ok () :=
  LabelValue.check_eq_ok_iff.mpr ⟨hsize, isAscii_of_label h, matchesName_of_label h⟩

/-- A label may be continued with a dash and a label. -/
theorem matchesLowercaseRfc1035Label_append {t : List Char}
    (hs : matchesLowercaseRfc1035Label s = true) (ht : matchesLowercaseRfc1123Label t = true) :
    matchesLowercaseRfc1035Label (s ++ '-' :: t) = true :=
  isSegment_append
    (fun c hc => isLowerAlphanumOrDash_of_isLowerAlphanum c (isLowerAlphanum_of_isLower c hc))
    isLowerAlphanumOrDash_of_isLowerAlphanum (fun _ h => h) (by decide) hs ht

end Labels

/-! ### Qualified names -/

variable {hexDigest : String → String}

theorem QualifiedRoleGroupName.isLabel (name : QualifiedRoleGroupName) :
    matchesLowercaseRfc1035Label name.1.toList = true :=
  (Attribute.check_isRfc1035LabelName_iff.mp (name.2 .isRfc1035LabelName (by simp))).2

theorem QualifiedRoleGroupName.size_le (name : QualifiedRoleGroupName) :
    name.1.utf8ByteSize ≤ 52 :=
  Attribute.check_maxLength_iff.mp (name.2 (.maxLength 52) (by simp))

/-- A label that is short enough is a qualified name. -/
theorem check_qualified {s : String} (hlabel : matchesLowercaseRfc1035Label s.toList = true)
    (hsize : s.utf8ByteSize ≤ 52) :
    ∀ a ∈ [Attribute.maxLength 52, .isRfc1035LabelName, .isValidLabelValue],
      a.check [Attribute.maxLength 52, .isRfc1035LabelName, .isValidLabelValue] s = .ok () := by
  simp only [List.forall_mem_cons, Attribute.check_maxLength_iff,
    Attribute.check_isRfc1035LabelName_iff, Attribute.check_isValidLabelValue_iff]
  have hmax : rfc1035LabelMaxLength = 63 := rfl
  have hvalue : labelValueMaxLen = 63 := rfl
  refine ⟨hsize, ⟨by omega, hlabel⟩, ?_, List.forall_mem_nil _⟩
  exact labelValue_of_label (matchesLowercaseRfc1123Label_of_rfc1035 hlabel) (by omega)

namespace ResourceNames

variable (self : ResourceNames)

theorem toList_concatenatedName : self.concatenatedName.toList =
    self.clusterName.1.toList ++ '-' :: self.roleName.1.toList ++
      '-' :: self.roleGroupName.1.toList := by
  simp [concatenatedName]

/-- The three names joined are a label, of any length. -/
theorem isLabel_concatenatedName :
    matchesLowercaseRfc1035Label self.concatenatedName.toList = true := by
  have hcluster := self.clusterName.2 .isRfc1035LabelName (by simp)
  have hrole := self.roleName.2 .isRfc1123LabelName (by simp)
  have hroleGroup := self.roleGroupName.2 .isRfc1123LabelName (by simp)
  rw [Attribute.check_isRfc1035LabelName_iff] at hcluster
  rw [Attribute.check_isRfc1123LabelName_iff] at hrole hroleGroup
  rw [toList_concatenatedName]
  exact matchesLowercaseRfc1035Label_append
    (matchesLowercaseRfc1035Label_append hcluster.2 hrole.2) hroleGroup.2

/-- **The qualified name is valid**: a label of at most 52 characters. -/
theorem exists_qualifiedRoleGroupName (hdigest : IsHexDigest hexDigest) :
    ∃ name, self.qualifiedRoleGroupName hexDigest = some name ∧
      ensureMaxStringLength hexDigest self.concatenatedName 52 6 = some name.1 := by
  have hlabel := self.isLabel_concatenatedName
  have hlower : ∀ c : Char, c.isLower = true → isLowerAlphanumOrDash c = true := fun c hc =>
    isLowerAlphanumOrDash_of_isLowerAlphanum c (isLowerAlphanum_of_isLower c hc)
  have hascii : ∀ c, isLowerAlphanumOrDash c = true → c.toNat < 128 := by
    intro c hc
    have hsingle : matchesName ['a', c, 'a'] = true := matchesName_of_label (by
      simp [matchesLowercaseRfc1123Label, isSegment, hc, isLowerAlphanum])
    exact toNat_lt_of_isNameChar (isNameChar_of_matchesName hsingle c (by simp))
  obtain ⟨result, hresult, hsize, hresultLabel⟩ :=
    exists_isSegment_ensureMaxStringLength hdigest (by decide : 6 ≤ 64)
      (by decide : 1 + 1 + 6 ≤ 52) (by decide) hlower isLowerAlphanumOrDash_of_isLowerAlphanum
      hascii rfl rfl isLowerAlphanum_of_isLowerHexDigit hlabel
  have hmax : qualifiedMaxLength = 52 := rfl
  have hhash : hashLength = 6 := rfl
  have hfromStr := AttributedString.fromStr_eq_ok (check_qualified hresultLabel hsize)
  refine ⟨⟨result, check_qualified hresultLabel hsize⟩, ?_, hresult⟩
  have hall := isAscii_of_label (matchesLowercaseRfc1123Label_of_rfc1035 hlabel)
  simp only [qualifiedRoleGroupName, hall, hmax, hhash, hresult, guard, if_true, Option.pure_def,
    Option.bind_eq_bind, Option.bind_some, if_pos hsize, hfromStr]
  rfl

/-- **The name of a resource is valid** if its type accepts qualified names with the suffix. -/
theorem exists_resourceName {attributes : List Attribute} {suffix : String}
    {qualified : QualifiedRoleGroupName}
    (hqualified : self.qualifiedRoleGroupName hexDigest = some qualified)
    (h : ∀ a ∈ attributes, a.check attributes (qualified.1 ++ suffix) = .ok ()) :
    ∃ name, self.resourceName attributes suffix hexDigest = some name ∧
      name.1 = qualified.1 ++ suffix := by
  refine ⟨⟨_, h⟩, ?_, rfl⟩
  rw [resourceName, hqualified, Option.bind_eq_bind, Option.bind_some,
    AttributedString.fromStr_eq_ok h]
  rfl

/-! ### Names of resources -/

section Checks

variable (qualified : QualifiedRoleGroupName)

theorem check_subdomain : ∀ a ∈ [Attribute.isRfc1123DnsSubdomainName],
    a.check [.isRfc1123DnsSubdomainName] (qualified.1 ++ "") = .ok () := by
  have hsize := qualified.size_le
  have hmax : rfc1123SubdomainMaxLength = 253 := rfl
  rw [List.forall_mem_singleton, String.append_empty,
    Attribute.check_isRfc1123DnsSubdomainName_iff]
  refine ⟨by omega, matchesLowercaseRfc1123Subdomain_of_label ?_⟩
  exact matchesLowercaseRfc1123Label_of_rfc1035 qualified.isLabel

theorem check_deployment : ∀ a ∈ [Attribute.isRfc1123LabelName],
    a.check [.isRfc1123LabelName] (qualified.1 ++ "") = .ok () := by
  have hsize := qualified.size_le
  have hmax : rfc1123LabelMaxLength = 63 := rfl
  rw [List.forall_mem_singleton, String.append_empty, Attribute.check_isRfc1123LabelName_iff]
  exact ⟨by omega, matchesLowercaseRfc1123Label_of_rfc1035 qualified.isLabel⟩

theorem check_statefulSet :
    ∀ a ∈ [Attribute.maxLength (rfc1123LabelMaxLength - 1 - 10), .isRfc1123LabelName,
      .isValidLabelValue],
      a.check [Attribute.maxLength (rfc1123LabelMaxLength - 1 - 10), .isRfc1123LabelName,
        .isValidLabelValue] (qualified.1 ++ "") = .ok () := by
  have hsize := qualified.size_le
  have hlabel := matchesLowercaseRfc1123Label_of_rfc1035 qualified.isLabel
  have hmax : rfc1123LabelMaxLength = 63 := rfl
  have hvalue : labelValueMaxLen = 63 := rfl
  simp only [List.forall_mem_cons, String.append_empty, Attribute.check_maxLength_iff,
    Attribute.check_isRfc1123LabelName_iff, Attribute.check_isValidLabelValue_iff]
  refine ⟨hsize, ⟨by omega, hlabel⟩, ?_, List.forall_mem_nil _⟩
  exact labelValue_of_label hlabel (by omega)

/-- The suffixes are short enough for the names of Services. -/
theorem check_service (suffix : String) {label : List Char}
    (hsuffix : suffix.toList = '-' :: label) (hlabel : matchesLowercaseRfc1123Label label = true)
    (hsize : suffix.utf8ByteSize ≤ 11) :
    ∀ a ∈ [Attribute.isRfc1035LabelName, .isValidLabelValue],
      a.check [.isRfc1035LabelName, .isValidLabelValue] (qualified.1 ++ suffix) = .ok () := by
  have hqualified := qualified.size_le
  have hmax : rfc1035LabelMaxLength = 63 := rfl
  have hvalue : labelValueMaxLen = 63 := rfl
  have hjoin : matchesLowercaseRfc1035Label (qualified.1 ++ suffix).toList = true := by
    rw [String.toList_append, hsuffix]
    exact matchesLowercaseRfc1035Label_append qualified.isLabel hlabel
  have hjoinSize : (qualified.1 ++ suffix).utf8ByteSize ≤ 63 := by
    rw [String.utf8ByteSize_append]
    omega
  simp only [List.forall_mem_cons, Attribute.check_isRfc1035LabelName_iff,
    Attribute.check_isValidLabelValue_iff]
  refine ⟨⟨hjoinSize, hjoin⟩, ?_, List.forall_mem_nil _⟩
  exact labelValue_of_label (matchesLowercaseRfc1123Label_of_rfc1035 hjoin) hjoinSize

end Checks

/-- **Derived names are always valid**: for all names of clusters, roles and role groups, the
functions do not panic and give the qualified name with their suffix. -/
theorem exists_names (hdigest : IsHexDigest hexDigest) :
    ∃ qualified, self.qualifiedRoleGroupName hexDigest = some qualified ∧
      (∃ name, self.roleGroupConfigMap hexDigest = some name ∧ name.1 = qualified.1) ∧
      (∃ name, self.daemonSetName hexDigest = some name ∧ name.1 = qualified.1) ∧
      (∃ name, self.deploymentName hexDigest = some name ∧ name.1 = qualified.1) ∧
      (∃ name, self.statefulSetName hexDigest = some name ∧ name.1 = qualified.1) ∧
      (∃ name, self.headlessServiceName hexDigest = some name ∧
        name.1 = qualified.1 ++ "-headless") ∧
      (∃ name, self.metricsServiceName hexDigest = some name ∧
        name.1 = qualified.1 ++ "-metrics") ∧
      ∃ name, self.listenerName hexDigest = some name ∧ name.1 = qualified.1 := by
  obtain ⟨qualified, hqualified, -⟩ := self.exists_qualifiedRoleGroupName hdigest
  have hsubdomain := self.exists_resourceName hqualified (check_subdomain qualified)
  have hdeployment := self.exists_resourceName hqualified (check_deployment qualified)
  have hstatefulSet := self.exists_resourceName hqualified (check_statefulSet qualified)
  have hheadless := self.exists_resourceName hqualified
    (check_service qualified "-headless" rfl (by decide) (by decide))
  have hmetrics := self.exists_resourceName hqualified
    (check_service qualified "-metrics" rfl (by decide) (by decide))
  rw [String.append_empty] at hsubdomain hdeployment hstatefulSet
  exact ⟨qualified, hqualified, hsubdomain, hsubdomain, hdeployment, hstatefulSet, hheadless,
    hmetrics, hsubdomain⟩

/-- The names of the longest example of the documentation. -/
def longNames : ResourceNames where
  clusterName := ⟨"an-exceptional-long-cluster-name", by decide⟩
  roleName := ⟨"dagprocessor", by decide⟩
  roleGroupName := ⟨"default", by decide⟩

/-- The SHA-256 digest of the concatenated name. -/
def longNamesDigest : String := "6cc08b1912a5e68d52b2f3cb773198188b8cdbca89f2319a4a6bd86a5b89e424"

theorem isHexDigest_longNamesDigest : IsHexDigest fun _ => longNamesDigest :=
  isHexDigest_const rfl rfl

theorem exists_names_longNames :
    ∃ name, longNames.headlessServiceName (fun _ => longNamesDigest) = some name := by
  obtain ⟨_, _, _, _, _, _, ⟨name, hname, _⟩, _⟩ :=
    exists_names longNames isHexDigest_longNamesDigest
  exact ⟨name, hname⟩

end ResourceNames

end RoleGroupUtils

end V2

end StackableOperator
