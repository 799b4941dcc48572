import Mathlib
import StackableOperator.Builder.Pdb
import StackableOperator.V2.Kvp.Label

/-!
# Selecting the pods of a role

The pods of a role group carry the recommended labels. The selectors that are made for a role group,
for a role and for a cluster, in pod disruption budgets and in affinities, leave out some of these
labels. `selected_iff` says which pods they select: those of the same role group, role or cluster of
the same product, whatever other labels the pods have.
-/

namespace StackableOperator

namespace Kvp

/-! ### The model of the source -/

/-- What the recommended labels of an object are made from. -/
structure ObjectLabels where
  owner : Builder.Resource
  appName : String
  appVersion : String
  operatorName : String
  controllerName : String
  role : String
  roleGroup : String

/-- The labels that select the resources of a role group. -/
def Labels.roleGroupSelector (owner : Builder.Resource) (appName role roleGroup : String) :
    Except LabelError Labels := do
  let labels ← Labels.roleSelector owner appName role
  let labels := labels.insert (← Label.roleGroup roleGroup)
  return labels

/-- The recommended labels. -/
def Labels.recommended (objectLabels : ObjectLabels) : Except LabelError Labels := do
  let labels ← Labels.roleGroupSelector objectLabels.owner objectLabels.appName objectLabels.role
    objectLabels.roleGroup
  let managedBy ← Label.managedBy objectLabels.operatorName objectLabels.controllerName
  let version ← Label.version objectLabels.appVersion
  let labels := labels.insert managedBy
  let labels := labels.insert version
  let labels := labels.insert (← Label.stackableVendor)
  return labels

end Kvp

namespace Builder

/-- Add the recommended labels. -/
def ObjectMetaBuilder.withRecommendedLabels (self : ObjectMetaBuilder)
    (objectLabels : Kvp.ObjectLabels) : Except Kvp.LabelError ObjectMetaBuilder :=
  (Kvp.Labels.recommended objectLabels).map self.withLabels

end Builder

/-! #### Affinities -/

structure PodAffinityTerm where
  labelSelector : Option LabelSelector
  topologyKey : String

structure WeightedPodAffinityTerm where
  podAffinityTerm : PodAffinityTerm
  weight : Int32

def topologyKeyHostname : String := "kubernetes.io/hostname"

/-- An affinity to all pods of a role. -/
def affinityBetweenRolePods (appName clusterName role : String) (weight : Int32) :
    WeightedPodAffinityTerm where
  podAffinityTerm :=
    { labelSelector := some
        { matchExpressions := none
          matchLabels := some (IterMap.collect (M := BTreeMap String)
            [(k8sAppNameKey, appName), (k8sAppInstanceKey, clusterName),
              (k8sAppComponentKey, role)]) }
      topologyKey := topologyKeyHostname }
  weight := weight

/-- An affinity to all pods of a cluster. -/
def affinityBetweenClusterPods (appName clusterName : String) (weight : Int32) :
    WeightedPodAffinityTerm where
  podAffinityTerm :=
    { labelSelector := some
        { matchExpressions := none
          matchLabels := some (IterMap.collect (M := BTreeMap String)
            [(k8sAppNameKey, appName), (k8sAppInstanceKey, clusterName)]) }
      topologyKey := topologyKeyHostname }
  weight := weight

namespace Kvp

/-! ### Labels with their texts -/

/-- The key of a label is the given one, if its text is. -/
theorem Label.key_of_tryFrom {key value : String} {label : Label}
    (hkey : (Key.fromStr key).map Key.string = .ok key) (h : Label.tryFrom key value = .ok label) :
    label.key.string = key := by
  cases hk : Key.fromStr key with
  | error e =>
    rw [hk] at hkey
    cases hkey
  | ok k =>
    rw [Label.tryFrom, hk] at h
    rw [hk] at hkey
    cases hv : LabelValue.fromStr value with
    | error e =>
      rw [hv] at h
      cases h
    | ok v =>
      rw [hv] at h
      obtain rfl := Except.ok.inj h
      exact Except.ok.inj hkey

/-- The labels have these keys and values, and were inserted in this order. -/
def Labels.Holds (labels : Labels) (entries : List (String × String)) : Prop :=
  ∃ list : List Label, labels = Labels.fromIter list ∧
    list.map (fun label => (label.key.string, label.value.1)) = entries

namespace Labels

variable {labels : Labels} {entries : List (String × String)}

theorem Holds.insert (h : labels.Holds entries) {key value : String} {label : Label}
    (hkey : (Key.fromStr key).map Key.string = .ok key)
    (hlabel : Label.tryFrom key value = .ok label) :
    (labels.insert label).Holds (entries ++ [(key, value)]) := by
  obtain ⟨list, rfl, rfl⟩ := h
  refine ⟨list ++ [label], Labels.insert_fromIter list label, ?_⟩
  have hvalue := Label.value_of_tryFrom hlabel
  have hstring := Label.key_of_tryFrom hkey hlabel
  rw [List.map_append, List.map_singleton, hstring, hvalue]

/-- The map of the labels has the entries. -/
theorem Holds.get?_eq_some_iff (h : labels.Holds entries) (hnodup : (entries.map Prod.fst).Nodup)
    {key value : String} :
    IterMap.get? (M := BTreeMap String) labels.toBTreeMap key = some value ↔
      (key, value) ∈ entries := by
  obtain ⟨list, rfl, rfl⟩ := h
  rw [List.map_map] at hnodup
  rw [get?_toBTreeMap_fromIter hnodup, List.mem_map]
  simp only [Prod.mk.injEq]

theorem holds_new : Labels.new.Holds [] := ⟨[], rfl, rfl⟩

theorem holds_roleSelector {owner : Builder.Resource} {appName role : String}
    (h : roleSelector owner appName role = .ok labels) :
    labels.Holds [(k8sAppInstanceKey, owner.metadata.nameAny), (k8sAppNameKey, appName),
      (k8sAppComponentKey, role)] := by
  obtain ⟨common, hcommon, h⟩ := bind_eq_ok.mp h
  obtain ⟨component, hcomponent, h⟩ := bind_eq_ok.mp h
  obtain rfl := Except.ok.inj h
  obtain ⟨instance', hinstance, h⟩ := bind_eq_ok.mp hcommon
  obtain ⟨name, hname, h⟩ := bind_eq_ok.mp h
  obtain rfl := Except.ok.inj h
  exact ((holds_new.insert (by decide) hinstance).insert (by decide) hname).insert (by decide)
    hcomponent

theorem holds_roleGroupSelector {owner : Builder.Resource} {appName role roleGroup : String}
    (h : roleGroupSelector owner appName role roleGroup = .ok labels) :
    labels.Holds [(k8sAppInstanceKey, owner.metadata.nameAny), (k8sAppNameKey, appName),
      (k8sAppComponentKey, role), (k8sAppRoleGroupKey, roleGroup)] := by
  obtain ⟨selector, hselector, h⟩ := bind_eq_ok.mp h
  obtain ⟨label, hlabel, h⟩ := bind_eq_ok.mp h
  obtain rfl := Except.ok.inj h
  exact (holds_roleSelector hselector).insert (by decide) hlabel

theorem holds_recommended {objectLabels : ObjectLabels}
    (h : recommended objectLabels = .ok labels) :
    labels.Holds [(k8sAppInstanceKey, objectLabels.owner.metadata.nameAny),
      (k8sAppNameKey, objectLabels.appName), (k8sAppComponentKey, objectLabels.role),
      (k8sAppRoleGroupKey, objectLabels.roleGroup),
      (k8sAppManagedByKey,
        formatFullControllerName objectLabels.operatorName objectLabels.controllerName),
      (k8sAppVersionKey, objectLabels.appVersion), (stackableVendorKey, stackableVendorValue)] := by
  obtain ⟨selector, hselector, h⟩ := bind_eq_ok.mp h
  obtain ⟨managedBy, hmanagedBy, h⟩ := bind_eq_ok.mp h
  obtain ⟨version, hversion, h⟩ := bind_eq_ok.mp h
  obtain ⟨vendor, hvendor, h⟩ := bind_eq_ok.mp h
  obtain rfl := Except.ok.inj h
  exact (((holds_roleGroupSelector hselector).insert (by decide) hmanagedBy).insert (by decide)
    hversion).insert (by decide) hvendor

end Labels

end Kvp

namespace Builder

/-- The selector of a pod disruption budget is the one of its role. -/
theorem PodDisruptionBudgetBuilder.exists_of_newWithRole_eq_ok {owner : Resource}
    {appName role operatorName controllerName : String}
    {pdb : PodDisruptionBudgetBuilder ObjectMeta LabelSelector Unit}
    (h : newWithRole owner appName role operatorName controllerName = .ok pdb) :
    ∃ labels, Kvp.Labels.roleSelector owner appName role = .ok labels ∧
      pdb.selector = ⟨none, some labels.toBTreeMap⟩ := by
  unfold newWithRole at h
  split at h
  · cases h
  · next labels hlabels =>
    split at h
    · cases h
    · split at h
      · cases h
      · obtain rfl := Except.ok.inj h
        exact ⟨labels, hlabels, rfl⟩

end Builder

/-! ### Selected pods -/

theorem nodup_recommendedKeys :
    [k8sAppInstanceKey, k8sAppNameKey, k8sAppComponentKey, k8sAppRoleGroupKey, k8sAppManagedByKey,
      k8sAppVersionKey, stackableVendorKey].Nodup := by
  decide

/-- A selector for labels is about their values. -/
theorem LabelSelector.matches_ofLabels_iff {labels : BTreeMap String String}
    {entries : List (String × String)}
    (h : ∀ key value, IterMap.get? (M := BTreeMap String) labels key = some value ↔
      (key, value) ∈ entries) (pod : ObjectMeta) :
    (LabelSelector.mk none (some labels)).Matches pod ↔
      ∀ e ∈ entries, pod.label? e.1 = some e.2 := by
  have hiter : ∀ e : String × String,
      e ∈ IterMap.iter (M := BTreeMap String) labels ↔ e ∈ entries := by
    rintro ⟨key, value⟩
    rw [IterMap.mem_iter, h]
  simp [LabelSelector.Matches, hiter]

open Kvp in
/-- **Selected pods.** A pod has the recommended labels and any others. The selector of a role group
selects it iff it is a pod of that role group, and a pod disruption budget or an affinity for a
role or a cluster iff it is a pod of that role or cluster. -/
theorem selected_iff {objectLabels : ObjectLabels} {labels : Labels}
    (hlabels : Labels.recommended objectLabels = .ok labels) {pod : ObjectMeta}
    (hpod : ∀ key value, IterMap.get? (M := BTreeMap String) labels.toBTreeMap key = some value →
      pod.label? key = some value) :
    (∀ owner appName role roleGroup selector,
      Labels.roleGroupSelector owner appName role roleGroup = .ok selector →
      ((LabelSelector.mk none (some selector.toBTreeMap)).Matches pod ↔
        owner.metadata.nameAny = objectLabels.owner.metadata.nameAny ∧
          appName = objectLabels.appName ∧ role = objectLabels.role ∧
            roleGroup = objectLabels.roleGroup)) ∧
    (∀ owner appName role operatorName controllerName pdb,
      Builder.PodDisruptionBudgetBuilder.newWithRole owner appName role operatorName
        controllerName = .ok pdb →
      (pdb.selector.Matches pod ↔
        owner.metadata.nameAny = objectLabels.owner.metadata.nameAny ∧
          appName = objectLabels.appName ∧ role = objectLabels.role)) ∧
    (∀ appName clusterName role weight,
      ∀ selector ∈ (affinityBetweenRolePods appName clusterName role
        weight).podAffinityTerm.labelSelector,
      (selector.Matches pod ↔ clusterName = objectLabels.owner.metadata.nameAny ∧
        appName = objectLabels.appName ∧ role = objectLabels.role)) ∧
    ∀ appName clusterName weight,
      ∀ selector ∈ (affinityBetweenClusterPods appName clusterName
        weight).podAffinityTerm.labelSelector,
      (selector.Matches pod ↔ clusterName = objectLabels.owner.metadata.nameAny ∧
        appName = objectLabels.appName) := by
  have hrecommended := Labels.holds_recommended hlabels
  -- the pod has each recommended label
  have hvalue : ∀ {key value}, (key, value) ∈ _ → pod.label? key = some value :=
    fun hmem => hpod _ _ ((hrecommended.get?_eq_some_iff nodup_recommendedKeys).mpr hmem)
  have hinstance := hvalue (.head _)
  have hname := hvalue (.tail _ (.head _))
  have hcomponent := hvalue (.tail _ (.tail _ (.head _)))
  have hroleGroup := hvalue (.tail _ (.tail _ (.tail _ (.head _))))
  -- every selector is a set of recommended labels, compared one by one
  refine ⟨fun owner appName role roleGroup selector hselector => ?_,
    fun owner appName role operatorName controllerName pdb hpdb => ?_,
    fun appName clusterName role weight selector hselector => ?_,
    fun appName clusterName weight selector hselector => ?_⟩
  · have hholds := Labels.holds_roleGroupSelector hselector
    have hnodup := nodup_recommendedKeys.sublist (List.take_sublist 4 _)
    rw [LabelSelector.matches_ofLabels_iff fun _ _ => hholds.get?_eq_some_iff hnodup]
    simp [hinstance, hname, hcomponent, hroleGroup, eq_comm]
  · obtain ⟨selector, hselector, hpdb⟩ :=
      Builder.PodDisruptionBudgetBuilder.exists_of_newWithRole_eq_ok hpdb
    have hholds := Labels.holds_roleSelector hselector
    have hnodup := nodup_recommendedKeys.sublist (List.take_sublist 3 _)
    rw [hpdb, LabelSelector.matches_ofLabels_iff fun _ _ => hholds.get?_eq_some_iff hnodup]
    simp [hinstance, hname, hcomponent, eq_comm]
  · obtain rfl := Option.some.inj hselector
    have hnodup : ([(k8sAppNameKey, appName), (k8sAppInstanceKey, clusterName),
        (k8sAppComponentKey, role)].map Prod.fst).Nodup :=
      show [k8sAppNameKey, k8sAppInstanceKey, k8sAppComponentKey].Nodup by decide
    rw [LabelSelector.matches_ofLabels_iff fun _ _ => IterMap.get?_collect hnodup]
    simp [hinstance, hname, hcomponent, eq_comm, and_left_comm]
  · obtain rfl := Option.some.inj hselector
    have hnodup : ([(k8sAppNameKey, appName), (k8sAppInstanceKey, clusterName)].map
        Prod.fst).Nodup :=
      show [k8sAppNameKey, k8sAppInstanceKey].Nodup by decide
    rw [LabelSelector.matches_ofLabels_iff fun _ _ => IterMap.get?_collect hnodup]
    simp [hinstance, hname, eq_comm, and_comm]

/-- The recommended labels of a role group. -/
def simpleObjectLabels : Kvp.ObjectLabels where
  owner := ⟨"zookeeper.stackable.tech/v1alpha1", "ZookeeperCluster",
    ⟨some "simple", none, some "default", none, none, some "1"⟩⟩
  appName := "zookeeper"
  appVersion := "3.9.4"
  operatorName := "zookeeper.stackable.tech"
  controllerName := "zookeepercluster"
  role := "server"
  roleGroup := "default"

theorem selected_iff_simpleObjectLabels :
    ∃ pod : ObjectMeta, ∀ selector ∈ (affinityBetweenRolePods "zookeeper" "simple" "server"
      70).podAffinityTerm.labelSelector, selector.Matches pod := by
  obtain ⟨labels, hlabels⟩ : ∃ labels, Kvp.Labels.recommended simpleObjectLabels = .ok labels :=
    ⟨_, rfl⟩
  have h := @selected_iff simpleObjectLabels labels hlabels
    ⟨some "simple-0", none, some "default", some labels.toBTreeMap, none, none⟩
    fun _ _ hvalue => hvalue
  exact ⟨_, fun selector hselector =>
    (h.2.2.1 "zookeeper" "simple" "server" 70 selector hselector).mpr ⟨rfl, rfl, rfl⟩⟩

end StackableOperator
