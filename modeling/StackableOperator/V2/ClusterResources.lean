import Mathlib
import StackableOperator.V2.Kvp.Label
import StackableOperator.V2.Macros.AttributedStringSchema
import StackableOperator.V2.Types.Kubernetes

/-!
# Cluster resources for validated names

`clusterResourcesNew` does not fail. The recommended labels of the same names are the expected
ones iff the operator and the controller name can be joined to a label value
(`add_recommendedLabels_iff`): the label falls back to the operator name where the names are too
long, and the expectation does not.
-/

namespace StackableOperator

/-! ### Rejected labels -/

namespace ClusterResources

/-- The resource is rejected because of its labels. -/
def Error.IsLabelRejection : Error → Prop
  | missingLabel _ | unexpectedLabelContent _ _ _ => True
  | _ => False

theorem isLabelRejection_of_checkLabels {metadata : ObjectMeta}
    {expected : List (String × String)} {e : Error}
    (h : checkLabels metadata expected = .error e) : e.IsLabelRejection := by
  induction expected with
  | nil => simp [checkLabels] at h
  | cons entry expected ih =>
    rw [checkLabels, checkLabel] at h
    rcases hlabel : metadata.label? entry.1 with _ | actualContent
    · rw [hlabel] at h
      obtain rfl := Except.error.inj h
      trivial
    · rw [hlabel] at h
      dsimp only at h
      by_cases hcontent : entry.2 = actualContent
      · rw [if_pos hcontent] at h
        exact ih h
      · rw [if_neg hcontent] at h
        obtain rfl := Except.error.inj h
        trivial

section Add

variable {F : Type} {types : KubeTypes F} {api : KubeApi F} {client : Client}

/-- The strategies do not look at the labels. -/
theorem not_isLabelRejection_of_run {strategy : ClusterResourceApplyStrategy} {manager : String}
    {k : Kind} {resource : Object F k} {w : World api} {e : Error}
    (h : (strategy.run manager resource client w).1 = .error e) : ¬ e.IsLabelRejection := by
  have hmapError : ∀ {α : Type} {answer : Except Client.Error α} {f : Client.Error → Error},
      answer.mapError f = .error e → (∀ source, ¬ (f source).IsLabelRejection) →
        ¬ e.IsLabelRejection := by
    intro α answer f hanswer hf
    rcases answer with source | a
    · obtain rfl := Except.error.inj hanswer
      exact hf source
    · exact absurd hanswer (by simp [Except.mapError])
  rcases strategy with _ | _ | _ | _
  · exact hmapError h fun _ => id
  · rw [ClusterResourceApplyStrategy.run] at h
    rcases hnamespace : resource.metadata.namespace with _ | n
    · rw [hnamespace] at h
      obtain rfl := Except.error.inj h
      exact id
    · rw [hnamespace] at h
      exact hmapError h fun _ => id
  · exact hmapError h fun _ => id
  · exact absurd h (by simp [ClusterResourceApplyStrategy.run])

variable [Inhabited F]

/-- Adding a resource rejects its labels iff their check fails. -/
theorem forall_not_isLabelRejection_add_iff {self : ClusterResources} {w : World api} {k : Kind}
    {resource : Object F k} :
    (∀ e, (self.add types client w resource).1 = .error e → ¬ e.IsLabelRejection) ↔
      checkLabels resource.metadata self.expectedLabels = .ok () := by
  constructor
  · intro h
    rcases hcheck : checkLabels resource.metadata self.expectedLabels with e | _
    · refine absurd (isLabelRejection_of_checkLabels hcheck) (h e ?_)
      rw [add, hcheck]
    · rfl
  · intro hcheck e h
    rw [add, hcheck] at h
    dsimp only at h
    split at h
    · obtain rfl := Except.error.inj h
      exact id
    · split at h
      · rename_i e' w' hrun
        obtain rfl := Except.error.inj h
        exact not_isLabelRejection_of_run (congrArg Prod.fst hrun)
      · split at h
        · obtain rfl := Except.error.inj h
          exact id
        · exact absurd h (by simp)

end Add

end ClusterResources

namespace V2

open Kvp

/-! ### The model of the source -/

variable {tryParse : String → Except String Unit}

/-- New cluster resources, whose cluster object reference contains name, namespace and uid. -/
def clusterResourcesNew (productName : ProductName) (operatorName : OperatorName)
    (controllerName : ControllerName) (clusterName : ClusterName)
    (clusterNamespace : NamespaceName) (clusterUid : Uid tryParse)
    (applyStrategy : ClusterResourceApplyStrategy) (objectOverrides : ObjectOverrides) :
    Option ClusterResources :=
  (ClusterResources.new productName.1 operatorName.1 controllerName.1
    { name := some clusterName.1
      «namespace» := some clusterNamespace.1
      uid := some clusterUid.1 }
    applyStrategy objectOverrides).toOption

/-- The label value that is built from the product name and `-operator` is short enough. -/
example : Attribute.maxLengthOf [.maxLength 54, .isRfc1123DnsSubdomainName, .isValidLabelValue] +
    "-operator".utf8ByteSize ≤ maxLabelValueLength := by
  decide

/-! ### Recommended labels are expected ones -/

section Recommended

variable (clusterName : ClusterName) (productName : ProductName)
  (productVersion : ProductVersion) (operatorName : OperatorName)
  (controllerName : ControllerName) (roleName : RoleName) (roleGroupName : RoleGroupName)

/-- The label sets that operators put on resources that they add. -/
def recommendedLabels : List (Option Labels) :=
  [recommendedLabelsForClusterResources clusterName productName productVersion operatorName
      controllerName,
    recommendedLabelsForRoleResources clusterName productName productVersion operatorName
      controllerName roleName,
    recommendedLabelsForRoleGroupResources clusterName productName productVersion operatorName
      controllerName roleName roleGroupName,
    recommendedLabelsForUnversionedRoleGroupResources clusterName productName operatorName
      controllerName roleName roleGroupName]

/-- The three labels that are checked. -/
def checkedLabels : List (String × String) :=
  [(k8sAppInstanceKey, clusterName.1), (k8sAppNameKey, productName.1),
    (k8sAppManagedByKey, managedBy operatorName controllerName)]

theorem exists_of_checkedLabels_subset {labels : List (Option Label)}
    {entries : List (String × String)} (h : List.Forall₂ GivesLabel labels entries)
    (hnodup : (entries.map Prod.fst).Nodup)
    (hsubset : checkedLabels clusterName productName operatorName controllerName ⊆ entries) :
    ∃ result, collectLabels labels = some result ∧
      ∀ e ∈ checkedLabels clusterName productName operatorName controllerName,
        IterMap.get? (M := BTreeMap String) result.toBTreeMap e.1 = some e.2 := by
  obtain ⟨result, hresult, hget⟩ := exists_collectLabels h hnodup
  exact ⟨result, hresult, fun e he => (hget e.1 e.2).mpr (hsubset he)⟩

/-- All recommended label sets have the three labels. -/
theorem exists_recommendedLabels {labels? : Option Labels}
    (h : labels? ∈ recommendedLabels clusterName productName productVersion operatorName
      controllerName roleName roleGroupName) :
    ∃ labels, labels? = some labels ∧
      ∀ e ∈ checkedLabels clusterName productName operatorName controllerName,
        IterMap.get? (M := BTreeMap String) labels.toBTreeMap e.1 = some e.2 := by
  have hinstance : GivesLabel (labelAppKubernetesIoInstance clusterName) _ :=
    givesLabel_name (by simp) (by decide) clusterName
  have hname : GivesLabel (labelAppKubernetesIoName productName) _ :=
    givesLabel_name (by simp) (by decide) productName
  have hversion : GivesLabel (labelAppKubernetesIoVersion productVersion) _ :=
    givesLabel_name (by simp) (by decide) productVersion
  have hcomponent : GivesLabel (labelAppKubernetesIoComponent roleName) _ :=
    givesLabel_name (by simp) (by decide) roleName
  have hroleGroup : GivesLabel (labelAppKubernetesIoRoleGroup roleGroupName) _ :=
    givesLabel_name (by simp) (by decide) roleGroupName
  have hmanagedBy := givesLabel_managedBy operatorName controllerName
  have hvendor : GivesLabel labelStackableTechVendor _ :=
    givesLabel_tryFrom (by decide) (by decide)
  simp only [recommendedLabels, List.mem_cons, List.not_mem_nil, or_false] at h
  rcases h with rfl | rfl | rfl | rfl
  · exact exists_of_checkedLabels_subset _ _ _ _
      (.cons hinstance (.cons hname (.cons hversion (.cons hmanagedBy (.cons hvendor .nil)))))
      (by simp only [List.map]; decide) (by simp [checkedLabels])
  · exact exists_of_checkedLabels_subset _ _ _ _
      (.cons hinstance (.cons hname (.cons hversion (.cons hcomponent
        (.cons hmanagedBy (.cons hvendor .nil))))))
      (by simp only [List.map]; decide) (by simp [checkedLabels])
  · exact exists_of_checkedLabels_subset _ _ _ _
      (.cons hinstance (.cons hname (.cons hversion (.cons hcomponent (.cons hroleGroup
        (.cons hmanagedBy (.cons hvendor .nil)))))))
      (by simp only [List.map]; decide) (by simp [checkedLabels])
  · exact exists_of_checkedLabels_subset _ _ _ _
      (.cons hinstance (.cons hname (.cons hcomponent (.cons hroleGroup
        (.cons hmanagedBy (.cons hvendor .nil))))))
      (by simp only [List.map]; decide) (by simp [checkedLabels])

variable (clusterNamespace : NamespaceName) (clusterUid : Uid tryParse)
  (applyStrategy : ClusterResourceApplyStrategy) (objectOverrides : ObjectOverrides)

/-- The expected labels are the three labels, if the full controller name is not shortened. -/
theorem exists_clusterResourcesNew :
    ∃ resources, clusterResourcesNew productName operatorName controllerName clusterName
        clusterNamespace clusterUid applyStrategy objectOverrides = some resources ∧
      resources.expectedLabels = [(k8sAppInstanceKey, clusterName.1),
        (k8sAppManagedByKey, formatFullControllerName operatorName.1 controllerName.1),
        (k8sAppNameKey, productName.1)] :=
  ⟨_, rfl, rfl⟩

/-- The check accepts the labels iff the full controller name is not shortened. -/
theorem checkLabels_eq_ok_iff_le {labels : Labels} {metadata : ObjectMeta}
    (hget : ∀ e ∈ checkedLabels clusterName productName operatorName controllerName,
      IterMap.get? (M := BTreeMap String) labels.toBTreeMap e.1 = some e.2)
    (hlabels : metadata.labels = some labels.toBTreeMap) {resources : ClusterResources}
    (hexpected : resources.expectedLabels = [(k8sAppInstanceKey, clusterName.1),
      (k8sAppManagedByKey, formatFullControllerName operatorName.1 controllerName.1),
      (k8sAppNameKey, productName.1)]) :
    ClusterResources.checkLabels metadata resources.expectedLabels = .ok () ↔
      operatorName.1.utf8ByteSize + 1 + controllerName.1.utf8ByteSize ≤ labelValueMaxLen := by
  have hlabel : ∀ e ∈ checkedLabels clusterName productName operatorName controllerName,
      metadata.label? e.1 = some e.2 := by
    intro e he
    rw [ObjectMeta.label?, hlabels, Option.bind_some]
    exact hget e he
  have hinstance := hlabel (k8sAppInstanceKey, clusterName.1) (by simp [checkedLabels])
  have hname := hlabel (k8sAppNameKey, productName.1) (by simp [checkedLabels])
  have hmanagedBy := hlabel (k8sAppManagedByKey, managedBy operatorName controllerName)
    (by simp [checkedLabels])
  rw [ClusterResources.checkLabels_eq_ok_iff, hexpected, ← managedBy_eq_iff]
  constructor
  · intro h
    have hexpectedLabel := h
      (k8sAppManagedByKey, formatFullControllerName operatorName.1 controllerName.1) (by simp)
    exact Option.some.inj (hmanagedBy.symm.trans hexpectedLabel)
  · intro h e he
    rw [← h] at he
    simp only [List.mem_cons, List.not_mem_nil, or_false] at he
    rcases he with rfl | rfl | rfl
    · exact hinstance
    · exact hmanagedBy
    · exact hname

end Recommended

/-- **The recommended labels are accepted** by the cluster resources of the same names iff the
operator and the controller name are short enough to be joined. -/
theorem add_recommendedLabels_iff (clusterName : ClusterName) (productName : ProductName)
    (productVersion : ProductVersion) (operatorName : OperatorName)
    (controllerName : ControllerName) (roleName : RoleName) (roleGroupName : RoleGroupName)
    (clusterNamespace : NamespaceName) (clusterUid : Uid tryParse)
    (applyStrategy : ClusterResourceApplyStrategy) (objectOverrides : ObjectOverrides)
    {F : Type} [Inhabited F] (types : KubeTypes F) {api : KubeApi F} (client : Client)
    (w : World api) {k : Kind} (resource : Object F k) :
    ∃ resources, clusterResourcesNew productName operatorName controllerName clusterName
        clusterNamespace clusterUid applyStrategy objectOverrides = some resources ∧
      ∀ labels? ∈ recommendedLabels clusterName productName productVersion operatorName
          controllerName roleName roleGroupName,
        ∃ labels, labels? = some labels ∧
          let metadata := { resource.metadata with labels := some labels.toBTreeMap }
          let fits := operatorName.1.utf8ByteSize + 1 + controllerName.1.utf8ByteSize ≤
            labelValueMaxLen
          (ClusterResources.checkLabels metadata resources.expectedLabels = .ok () ↔ fits) ∧
            ((∀ e, (resources.add types client w { resource with metadata := metadata }).1 =
              .error e → ¬ e.IsLabelRejection) ↔ fits) := by
  obtain ⟨resources, hresources, hexpected⟩ := exists_clusterResourcesNew clusterName productName
    operatorName controllerName clusterNamespace clusterUid applyStrategy objectOverrides
  refine ⟨resources, hresources, ?_⟩
  intro labels? hlabels?
  obtain ⟨labels, hlabels, hget⟩ := exists_recommendedLabels _ _ _ _ _ _ _ hlabels?
  have hcheck : ClusterResources.checkLabels
      { resource.metadata with labels := some labels.toBTreeMap } resources.expectedLabels =
        .ok () ↔ _ :=
    checkLabels_eq_ok_iff_le clusterName productName operatorName controllerName hget rfl hexpected
  exact ⟨labels, hlabels, hcheck,
    ClusterResources.forall_not_isLabelRejection_add_iff.trans hcheck⟩

/-! ### Names that are too long -/

/-- A string that all attributes accept. -/
def name (attributes : List Attribute) (s : String)
    (h : Attribute.checkAll attributes s attributes = .ok ()) : AttributedString attributes :=
  ⟨s, Attribute.checkAll_eq_ok_iff.mp h⟩

/-- The full controller name has 68 characters, and the label keeps 40 of them. -/
theorem not_checkLabels_recommendedLabels :
    let clusterName : ClusterName := name _ "cluster-name" (by decide)
    let productName : ProductName := name _ "my-product" (by decide)
    let operatorName : OperatorName :=
      name _ "operator-with-a-long-name.stackable.tech" (by decide)
    let controllerName : ControllerName := name _ "controller-with-a-long-name" (by decide)
    let clusterUid : Uid tryParseUuid := name _ "e6ac237d-a6d4-43a1-8135-f36506110912" (by decide)
    ∃ resources labels,
      clusterResourcesNew productName operatorName controllerName clusterName
          (name _ "default" (by decide)) clusterUid .default [] = some resources ∧
        recommendedLabelsForClusterResources clusterName productName (name _ "1.0.0" (by decide))
          operatorName controllerName = some labels ∧
        ∀ metadata : ObjectMeta, metadata.labels = some labels.toBTreeMap →
          ClusterResources.checkLabels metadata resources.expectedLabels ≠ .ok () := by
  intro clusterName productName operatorName controllerName clusterUid
  obtain ⟨resources, hresources, hexpected⟩ := exists_clusterResourcesNew clusterName productName
    operatorName controllerName (name _ "default" (by decide)) clusterUid .default []
  obtain ⟨labels, hlabels, hget⟩ := exists_recommendedLabels clusterName productName
    (name _ "1.0.0" (by decide)) operatorName controllerName (name _ "role" (by decide))
    (name _ "group" (by decide)) List.mem_cons_self
  refine ⟨resources, labels, hresources, hlabels, ?_⟩
  intro metadata hmetadata
  rw [Ne, checkLabels_eq_ok_iff_le clusterName productName operatorName controllerName hget
    hmetadata hexpected]
  decide

end V2

end StackableOperator
