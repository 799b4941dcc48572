import Mathlib
import StackableOperator.Builder.Pdb
import StackableOperator.Commons.Rbac
import StackableOperator.V2.ClusterResources
import StackableOperator.V2.Macros.AttributedStringSchema
import StackableOperator.V2.Types.Kubernetes

/-!
# Infallible builders

The builders that take validated names panic where the fallible ones give an error (`none`).
`buildServiceAccount` and `buildRoleBinding` never do. `podDisruptionBudgetBuilderWithRole` does if
the operator and the controller name are too long to be joined to a label value.
-/

namespace StackableOperator

namespace V2

open Builder Kvp

/-! ### The model of the source -/

/-- A resource with the traits `HasName` and `HasUid`. -/
structure Owner (tryParse : String → Except String Unit) extends Builder.Resource where
  toName : String
  toUid : Uid tryParse

variable {tryParse : String → Except String Unit}

/-- The reference to an owner, whose name and UID are those of the traits. -/
def ownerreferenceFromResource (resource : Owner tryParse)
    (blockOwnerDeletion controller : Option Bool) : Option Builder.OwnerReference :=
  (((((OwnerReferenceBuilder.new.initializeFromResource resource.toResource).withName
    resource.toName).withUid resource.toUid.1).blockOwnerDeletionOpt
      blockOwnerDeletion).controllerOpt controller).build.toOption

/-- The builder of a pod disruption budget for a role. -/
def podDisruptionBudgetBuilderWithRole (owner : Owner tryParse) (productName : ProductName)
    (roleName : RoleName) (operatorName : OperatorName) (controllerName : ControllerName) :
    Option (PodDisruptionBudgetBuilder Builder.ObjectMeta LabelSelector Unit) :=
  (PodDisruptionBudgetBuilder.newWithRole owner.toResource productName.1 roleName.1 operatorName.1
    controllerName.1).toOption

/-- The names that the names of resources are made of. -/
structure ResourceNames where
  clusterName : ClusterName
  productName : ProductName

namespace ResourceNames

def serviceAccountName (self : ResourceNames) : Option ServiceAccountName :=
  (AttributedString.fromStr _ (self.clusterName.1 ++ "-serviceaccount")).toOption

def roleBindingName (self : ResourceNames) : Option RoleBindingName :=
  (AttributedString.fromStr _ (self.clusterName.1 ++ "-rolebinding")).toOption

def clusterRoleName (self : ResourceNames) : Option ClusterRoleName :=
  (AttributedString.fromStr _ (self.productName.1 ++ "-clusterrole")).toOption

end ResourceNames

/-- Common metadata of the RBAC resources. -/
def buildMetadata (owner : Owner tryParse) (name : String) (labels : Labels) :
    Option Builder.ObjectMeta := do
  let ownerreference ← ownerreferenceFromResource owner none (some true)
  return ((((ObjectMetaBuilder.new.withName name).namespaceOpt
    owner.metadata.namespace).withOwnerreference ownerreference).withLabels labels).build

def buildServiceAccount (owner : Owner tryParse) (resourceNames : ResourceNames) (labels : Labels) :
    Option Rbac.ServiceAccount := do
  let name ← resourceNames.serviceAccountName
  let metadata ← buildMetadata owner name.1 labels
  return { metadata := metadata }

def buildRoleBinding (owner : Owner tryParse) (resourceNames : ResourceNames) (labels : Labels) :
    Option Rbac.RoleBinding := do
  let name ← resourceNames.roleBindingName
  let metadata ← buildMetadata owner name.1 labels
  let roleName ← resourceNames.clusterRoleName
  let subjectName ← resourceNames.serviceAccountName
  return {
    metadata := metadata
    roleRef :=
      { apiGroup := some "rbac.authorization.k8s.io"
        kind := "ClusterRole"
        name := roleName.1 }
    subjects := some [
      { kind := "ServiceAccount"
        name := subjectName.1
        «namespace» := owner.metadata.namespace
        apiGroup := none }] }

/-! ### Names with a suffix -/

/-- The attribute `isRfc1123DnsSubdomainName` of a name. -/
theorem matchesSubdomain_of_mem {attributes : List Attribute}
    (hmem : .isRfc1123DnsSubdomainName ∈ attributes) (name : AttributedString attributes) :
    Validation.matchesLowercaseRfc1123Subdomain name.1.toList = true :=
  (Attribute.check_isRfc1123DnsSubdomainName_iff.mp (name.2 _ hmem)).2

/-- A cluster name is a lowercase RFC 1123 subdomain. -/
theorem ClusterName.matchesSubdomain (clusterName : ClusterName) :
    Validation.matchesLowercaseRfc1123Subdomain clusterName.1.toList = true := by
  have hlabel := clusterName.2 .isRfc1035LabelName (by simp)
  rw [Attribute.check_isRfc1035LabelName_iff] at hlabel
  exact Validation.matchesLowercaseRfc1123Subdomain_of_label
    (Validation.matchesLowercaseRfc1123Label_of_rfc1035 hlabel.2)

/-- Names that are label values are short. -/
theorem utf8ByteSize_le {attributes : List Attribute} (hmem : .isValidLabelValue ∈ attributes)
    (name : AttributedString attributes) : name.1.utf8ByteSize ≤ labelValueMaxLen :=
  (LabelValue.check_eq_ok_iff.mp (AttributedString.check_labelValue hmem name)).1

/-- Appending a dash and a label to a name gives the name of a resource. -/
theorem exists_fromStr_append {s suffix : String} {label : List Char}
    (hs : Validation.matchesLowercaseRfc1123Subdomain s.toList = true)
    (hlength : s.utf8ByteSize ≤ labelValueMaxLen) (hsuffix : suffix.toList = '-' :: label)
    (hlabel : Validation.matchesLowercaseRfc1123Label label = true)
    (hsize : suffix.utf8ByteSize ≤ 190) :
    ∃ name : AttributedString [.isRfc1123DnsSubdomainName],
      (AttributedString.fromStr [.isRfc1123DnsSubdomainName] (s ++ suffix)).toOption = some name ∧
        name.1 = s ++ suffix := by
  have hattributes : ∀ a ∈ [Attribute.isRfc1123DnsSubdomainName],
      a.check [.isRfc1123DnsSubdomainName] (s ++ suffix) = .ok () := by
    rw [List.forall_mem_singleton, Attribute.check_isRfc1123DnsSubdomainName_iff,
      String.utf8ByteSize_append, String.toList_append, hsuffix]
    refine ⟨?_, Validation.matchesLowercaseRfc1123Subdomain_append hs hlabel⟩
    have hvalue : labelValueMaxLen = 63 := rfl
    have hdomain : Validation.rfc1123SubdomainMaxLength = 253 := rfl
    omega
  exact ⟨⟨s ++ suffix, hattributes⟩, by rw [AttributedString.fromStr_eq_ok hattributes]; rfl, rfl⟩

namespace ResourceNames

variable (self : ResourceNames)

theorem exists_serviceAccountName : ∃ name, self.serviceAccountName = some name ∧
    name.1 = Rbac.serviceAccountName self.clusterName.1 :=
  exists_fromStr_append self.clusterName.matchesSubdomain
    (utf8ByteSize_le (by simp) self.clusterName) rfl (by decide) (by decide)

theorem exists_roleBindingName : ∃ name, self.roleBindingName = some name ∧
    name.1 = Rbac.roleBindingName self.clusterName.1 :=
  exists_fromStr_append self.clusterName.matchesSubdomain
    (utf8ByteSize_le (by simp) self.clusterName) rfl (by decide) (by decide)

theorem exists_clusterRoleName : ∃ name, self.clusterRoleName = some name ∧
    name.1 = self.productName.1 ++ "-clusterrole" :=
  exists_fromStr_append (matchesSubdomain_of_mem (by simp) self.productName)
    (utf8ByteSize_le (by simp) self.productName) rfl (by decide) (by decide)

end ResourceNames

/-! ### Agreement with the fallible builders -/

/-- An owner whose metadata has the name of a cluster, a namespace and a UID, which the traits
give. -/
structure Cluster (tryParse : String → Except String Unit) extends Owner tryParse where
  clusterName : ClusterName
  clusterNamespace : String
  name_eq : metadata.name = some clusterName.1
  namespace_eq : metadata.namespace = some clusterNamespace
  uid_eq : metadata.uid = some toUid.1
  toName_eq : toName = clusterName.1

namespace Cluster

variable (cluster : Cluster tryParse)

theorem nameAny_eq : cluster.metadata.nameAny = cluster.clusterName.1 := by
  rw [ObjectMeta.nameAny, cluster.name_eq]
  rfl

theorem buildMetadata_eq (name : String) (labels : Labels) :
    buildMetadata cluster.toOwner name labels =
      some (ObjectMetaBuilder.controlledBy cluster.toResource cluster.toUid.1 name labels) := by
  simp only [buildMetadata, ownerreferenceFromResource, OwnerReferenceBuilder.build,
    OwnerReferenceBuilder.controllerOpt, OwnerReferenceBuilder.blockOwnerDeletionOpt,
    OwnerReferenceBuilder.withUid, OwnerReferenceBuilder.withName,
    OwnerReferenceBuilder.initializeFromResource, Except.toOption, Option.pure_def,
    Option.bind_eq_bind, Option.bind_some, ObjectMetaBuilder.build, ObjectMetaBuilder.withLabels,
    ObjectMetaBuilder.withOwnerreference, ObjectMetaBuilder.namespaceOpt,
    ObjectMetaBuilder.withName, ObjectMetaBuilder.nameOpt, ObjectMetaBuilder.new,
    Option.getD_none, Labels.extend_new, Option.map_some, Option.map_none,
    ObjectMetaBuilder.controlledBy, cluster.toName_eq, cluster.nameAny_eq]

/-- The RBAC resources of the fallible builder, and no panic. -/
def RbacAgrees (productName : ProductName) (labels : Labels) : Prop :=
  ∃ serviceAccount roleBinding,
    buildServiceAccount cluster.toOwner ⟨cluster.clusterName, productName⟩ labels =
        some serviceAccount ∧
      buildRoleBinding cluster.toOwner ⟨cluster.clusterName, productName⟩ labels =
        some roleBinding ∧
      Rbac.buildRbacResources cluster.toResource productName.1 labels =
        .ok (serviceAccount, roleBinding)

theorem rbacAgrees (productName : ProductName) (labels : Labels) :
    cluster.RbacAgrees productName labels := by
  let resourceNames : ResourceNames := ⟨cluster.clusterName, productName⟩
  obtain ⟨accountName, haccountName, haccount⟩ := resourceNames.exists_serviceAccountName
  obtain ⟨bindingName, hbindingName, hbinding⟩ := resourceNames.exists_roleBindingName
  obtain ⟨roleName, hroleName, hrole⟩ := resourceNames.exists_clusterRoleName
  refine ⟨_, _, ?_, ?_, Rbac.buildRbacResources_eq_ok productName.1 labels cluster.uid_eq⟩
  · rw [buildServiceAccount, haccountName, Option.bind_eq_bind, Option.bind_some,
      buildMetadata_eq, haccount, cluster.nameAny_eq]
    rfl
  · rw [buildRoleBinding, hbindingName, haccountName, hroleName, Option.bind_eq_bind,
      Option.bind_some, buildMetadata_eq, hbinding, Option.bind_eq_bind, Option.bind_some,
      Option.bind_some, Option.bind_some, haccount, hrole, cluster.nameAny_eq]
    rfl

section Pdb

variable (productName : ProductName) (productVersion : ProductVersion)
  (operatorName : OperatorName) (controllerName : ControllerName) (roleName : RoleName)
  (roleGroupName : RoleGroupName)

/-- The pod disruption budget of the fallible builder, and no panic. All recommended labels have
its `managed-by` label. -/
def PdbAgrees : Prop :=
  ∃ builder,
    podDisruptionBudgetBuilderWithRole cluster.toOwner productName roleName operatorName
        controllerName = some builder ∧
      PodDisruptionBudgetBuilder.newWithRole cluster.toResource productName.1 roleName.1
        operatorName.1 controllerName.1 = .ok builder ∧
      ∀ recommended? ∈ recommendedLabels cluster.clusterName productName productVersion
          operatorName controllerName roleName roleGroupName,
        ∃ recommended labels value, recommended? = some recommended ∧
          builder.metadata.labels = some labels ∧
          IterMap.get? (M := BTreeMap String) labels k8sAppManagedByKey = some value ∧
          IterMap.get? (M := BTreeMap String) recommended.toBTreeMap k8sAppManagedByKey =
            some value

/-- A label that a function gives without an error. -/
theorem exists_of_givesLabel {label? : Except LabelError Label} {e : String × String}
    (h : GivesLabel label?.toOption e) :
    ∃ label, label? = .ok label ∧ label.key.string = e.1 ∧ label.value.1 = e.2 := by
  obtain ⟨label, hlabel, hentry⟩ := h
  match label? with
  | .error e => simp [Except.toOption] at hlabel
  | .ok label' =>
    obtain rfl : label' = label := Option.some.inj hlabel
    exact ⟨label', rfl, hentry⟩

/-- The full controller name is a label value iff it is short enough. -/
theorem check_formatFullControllerName_eq_ok_iff :
    LabelValue.check (formatFullControllerName operatorName.1 controllerName.1) = .ok () ↔
      operatorName.1.utf8ByteSize + 1 + controllerName.1.utf8ByteSize ≤ labelValueMaxLen :=
  check_join_eq_ok_iff (AttributedString.check_labelValue (by simp) operatorName)
    (AttributedString.check_labelValue (by simp) controllerName)

theorem pdbAgrees_iff :
    cluster.PdbAgrees productName productVersion operatorName controllerName roleName
        roleGroupName ↔
      operatorName.1.utf8ByteSize + 1 + controllerName.1.utf8ByteSize ≤ labelValueMaxLen := by
  rw [← check_formatFullControllerName_eq_ok_iff]
  constructor
  · rintro ⟨builder, -, hbuilder, -⟩
    by_contra hcheck
    refine PodDisruptionBudgetBuilder.newWithRole_ne_ok (fun label hlabel => hcheck ?_) builder
      hbuilder
    rw [← Label.value_of_tryFrom hlabel]
    exact label.value.2
  · intro hcheck
    have hinstance? : GivesLabel (Label.instance cluster.clusterName.1).toOption _ :=
      givesLabel_name (by simp) (by decide) cluster.clusterName
    have hname? : GivesLabel (Label.name productName.1).toOption _ :=
      givesLabel_name (by simp) (by decide) productName
    have hcomponent? : GivesLabel (Label.component roleName.1).toOption _ :=
      givesLabel_name (by simp) (by decide) roleName
    have hmanaged? : GivesLabel
        (Label.managedBy operatorName.1 controllerName.1).toOption _ :=
      givesLabel_tryFrom (by decide) hcheck
    obtain ⟨instance', hinstance, hinstanceKey, -⟩ := exists_of_givesLabel hinstance?
    obtain ⟨name, hname, hnameKey, -⟩ := exists_of_givesLabel hname?
    obtain ⟨component, hcomponent, hcomponentKey, -⟩ := exists_of_givesLabel hcomponent?
    obtain ⟨managed, hmanaged, hmanagedKey, hmanagedValue⟩ := exists_of_givesLabel hmanaged?
    have hnew := PodDisruptionBudgetBuilder.newWithRole_eq_ok cluster.uid_eq
      (by rw [cluster.nameAny_eq]; exact hinstance) hname hcomponent hmanaged
    refine ⟨_, by rw [podDisruptionBudgetBuilderWithRole, hnew]; rfl, hnew, ?_⟩
    intro recommended? hrecommended?
    obtain ⟨recommended, hrecommended, hget⟩ := exists_recommendedLabels _ _ _ _ _ _ _
      hrecommended?
    -- the names fit, so that the recommended label is not shortened
    have hvalue := (managedBy_eq_iff operatorName controllerName).mpr
      ((check_formatFullControllerName_eq_ok_iff operatorName controllerName).mp hcheck)
    have hmanagedBy := hget (k8sAppManagedByKey, managedBy operatorName controllerName)
      (by simp [checkedLabels])
    refine ⟨recommended, _, managedBy operatorName controllerName, hrecommended, rfl, ?_,
      hmanagedBy⟩
    rw [Labels.get?_toBTreeMap_fromIter, hvalue]
    · exact ⟨managed, by simp, hmanagedKey, hmanagedValue⟩
    · simp only [List.cons_append, List.nil_append, List.map_cons, List.map_nil, hinstanceKey,
        hnameKey, hcomponentKey, hmanagedKey]
      decide

/-- **The infallible builders agree** with the fallible ones iff the operator and the controller
name are short enough to be joined. -/
theorem agrees_iff (labels : Labels) :
    (cluster.PdbAgrees productName productVersion operatorName controllerName roleName
        roleGroupName ∧ cluster.RbacAgrees productName labels) ↔
      operatorName.1.utf8ByteSize + 1 + controllerName.1.utf8ByteSize ≤ labelValueMaxLen := by
  rw [pdbAgrees_iff, and_iff_left (cluster.rbacAgrees productName labels)]

end Pdb

/-- A cluster for which the names of the operator and the controller are too long. -/
def sample : Cluster tryParseUuid where
  apiVersion := "group/version"
  kind := "kind"
  metadata :=
    { name := some "cluster-name"
      generateName := none
      «namespace» := some "default"
      labels := none
      ownerReferences := none
      uid := some "a6b89911-d48e-4328-88d6-b9251226583d" }
  toName := "cluster-name"
  toUid := name _ "a6b89911-d48e-4328-88d6-b9251226583d" (by decide)
  clusterName := name _ "cluster-name" (by decide)
  clusterNamespace := "default"
  name_eq := rfl
  namespace_eq := rfl
  uid_eq := rfl
  toName_eq := rfl

/-- The full controller name has 68 characters. -/
theorem podDisruptionBudgetBuilderWithRole_sample :
    podDisruptionBudgetBuilderWithRole sample.toOwner (name _ "my-product" (by decide))
      (name _ "my-role" (by decide))
      (name _ "operator-with-a-long-name.stackable.tech" (by decide))
      (name _ "controller-with-a-long-name" (by decide)) = none := by
  rw [podDisruptionBudgetBuilderWithRole]
  match hnew : PodDisruptionBudgetBuilder.newWithRole _ _ _ _ _ with
  | .error e => rfl
  | .ok builder =>
    refine absurd hnew
      (PodDisruptionBudgetBuilder.newWithRole_ne_ok (fun label hlabel => ?_) builder)
    have hcheck := label.value.2
    rw [Label.value_of_tryFrom hlabel] at hcheck
    exact absurd hcheck (by decide)

end Cluster

end V2

end StackableOperator
