import Mathlib
import StackableOperator.ClusterResources.Orphans

/-!
# Overridden cluster resources

`ClusterResources.add` applies the object overrides of the user after everything else. The user
has therefore the last word on labels, replicas, and node selectors.

* `add_clusterStopped`: in a stopped cluster a workload has no replicas, respectively a node
  selector that no node satisfies, except where an override says otherwise.
* `add_labels`: an applied object has the labels of the cluster unless an override changes one
  of them. With these labels a later reconcile finds and deletes it; without them no later
  reconcile does.
-/

namespace StackableOperator

namespace ClusterResources

open ObjectOverrides

variable {F : Type} [Inhabited F] {types : KubeTypes F} {api : KubeApi F} {client : Client}

/-- The overrides that are merged into a resource do not depend on the strategy. -/
theorem mergesFor_maybeMutate (overrides : ObjectOverrides) {k : Kind} (resource : Object F k)
    (strategy : ClusterResourceApplyStrategy) :
    mergesFor types overrides (resource.maybeMutate strategy) =
      mergesFor types overrides resource := by
  rw [mergesFor, Object.metadata_maybeMutate, mergesFor]

/-- A field of an applied object is what the last override sets, and else what the adapted
resource has. -/
theorem observe_of_requests_add (htypes : types.IsDocumented) {self : ClusterResources}
    {w : World api} {k : Kind} {resource object : Object F k} {fieldManager : Option String}
    (happlied : (self.add types client w resource).2.2.requests =
      .apply k fieldManager object :: w.requests)
    {β : Type} (observe : Object F k → Option β)
    (hobserve : ∀ base other,
      observe (types.mergeFrom base other) = (observe other).or (observe base))
    {v : β} (hv : observe (resource.maybeMutate self.applyStrategy) = some v) :
    observe object =
      some ((lastSet observe (mergesFor types self.objectOverrides resource)).getD v) := by
  obtain ⟨-, hoverrides⟩ := applyTo_of_requests_add happlied
  rw [applyTo_eq_foldl htypes hoverrides, observe_foldl hobserve, hv, mergesFor_maybeMutate,
    Option.or_some]

/-! ### Stopped clusters -/

/-- **Stopping a cluster**: an applied StatefulSet or Deployment has the replicas that the last
override sets, and none if no override sets them. The node selector of an applied DaemonSet is the
one of the last override that has a node selector; only if there is none, it is the one that no node
satisfies. -/
theorem add_clusterStopped (htypes : types.IsDocumented) {self : ClusterResources}
    (hstopped : self.applyStrategy = .clusterStopped) (w : World api)
    (fieldManager : Option String) :
    (∀ resource object : Object F .statefulSet,
      (self.add types client w resource).2.2.requests =
        .apply .statefulSet fieldManager object :: w.requests →
      Object.replicas object.contents = some ((lastSet (fun o => Object.replicas o.contents)
        (mergesFor types self.objectOverrides resource)).getD 0)) ∧
    (∀ resource object : Object F .deployment,
      (self.add types client w resource).2.2.requests =
        .apply .deployment fieldManager object :: w.requests →
      Object.replicas object.contents = some ((lastSet (fun o => Object.replicas o.contents)
        (mergesFor types self.objectOverrides resource)).getD 0)) ∧
    (∀ resource object : Object F .daemonSet,
      (self.add types client w resource).2.2.requests =
        .apply .daemonSet fieldManager object :: w.requests →
      Object.nodeSelector object.contents =
        some ((lastSet (fun o => Object.nodeSelector o.contents)
          (mergesFor types self.objectOverrides resource)).getD Object.stoppedNodeSelector)) := by
  -- the strategy stops the object first, and the overrides are merged over it
  refine ⟨?_, ?_, ?_⟩
  · intro resource object happlied
    refine observe_of_requests_add htypes happlied (fun o => Object.replicas o.contents)
      htypes.replicas_mergeFrom_statefulSet ?_
    rw [hstopped]
    exact Object.replicas_stopReplicas resource.contents
  · intro resource object happlied
    refine observe_of_requests_add htypes happlied (fun o => Object.replicas o.contents)
      htypes.replicas_mergeFrom_deployment ?_
    rw [hstopped]
    exact Object.replicas_stopReplicas resource.contents
  · intro resource object happlied
    refine observe_of_requests_add htypes happlied
      (fun o => Object.nodeSelector o.contents) htypes.nodeSelector_mergeFrom ?_
    rw [hstopped]
    exact Object.nodeSelector_stopPods resource.contents

/-- An override of the contents of the StatefulSet `"new"` that sets the replicas. -/
def replicasOverride (replicas : String) : DynamicObject where
  types := some ⟨"apps/v1", "StatefulSet"⟩
  metadata := ⟨some "new", none, some "default", none, none, none⟩
  data := .objectOf {"spec"} fun _ =>
    some (.objectOf {"replicas"} fun _ => some (.number replicas))

/-- A StatefulSet with three replicas. -/
def simpleStatefulSet : Object Unit .statefulSet :=
  simpleObject .statefulSet "new" none (some ⟨some 3, ()⟩)

/-- Without overrides the StatefulSet is stopped. -/
theorem add_clusterStopped_simpleHdfs : ∃ object : Object Unit .statefulSet,
    ((simpleHdfs .clusterStopped []).add unitTypes ⟨none⟩ simpleWorld
      simpleStatefulSet).2.2.requests = .apply .statefulSet none object :: simpleWorld.requests ∧
    Object.replicas object.contents = some 0 := by
  have hstopped : (simpleHdfs .clusterStopped []).applyStrategy = .clusterStopped := rfl
  have happlied : ((simpleHdfs .clusterStopped []).add unitTypes ⟨none⟩ simpleWorld
      simpleStatefulSet).2.2.requests = .apply .statefulSet none
        (simpleStatefulSet.maybeMutate .clusterStopped) :: simpleWorld.requests := rfl
  exact ⟨_, happlied, (add_clusterStopped isDocumented_unitTypes hstopped simpleWorld none).1
    simpleStatefulSet _ happlied⟩

/-- In a stopped cluster a StatefulSet has the replicas of an override. -/
theorem add_clusterStopped_replicasOverride : ∃ object : Object Unit .statefulSet,
    ((simpleHdfs .clusterStopped [replicasOverride "2"]).add unitTypes ⟨none⟩ simpleWorld
      simpleStatefulSet).2.2.requests = .apply .statefulSet none object :: simpleWorld.requests ∧
    Object.replicas object.contents = some 2 :=
  ⟨_, rfl, rfl⟩

/-! ### Labels of applied objects -/

/-- The overrides that set a label of the cluster last set it as expected. -/
def KeepsLabels (types : KubeTypes F) (self : ClusterResources) {k : Kind}
    (resource : Object F k) : Prop :=
  ∀ e ∈ self.expectedLabels, ∀ v,
    lastSet (fun o => o.metadata.label? e.1) (mergesFor types self.objectOverrides resource) =
      some v → v = e.2

/-- A label of an applied object is what the last override sets, and else the expected one. -/
theorem label?_of_requests_add (htypes : types.IsDocumented) {self : ClusterResources}
    {w : World api} {k : Kind} {resource object : Object F k} {fieldManager : Option String}
    (happlied : (self.add types client w resource).2.2.requests =
      .apply k fieldManager object :: w.requests)
    {e : String × String} (he : e ∈ self.expectedLabels) :
    object.metadata.label? e.1 =
      some ((lastSet (fun o => o.metadata.label? e.1)
        (mergesFor types self.objectOverrides resource)).getD e.2) := by
  obtain ⟨hlabels, -⟩ := applyTo_of_requests_add happlied
  refine observe_of_requests_add htypes happlied (fun o => o.metadata.label? e.1)
    (fun base other => htypes.label?_mergeFrom base other e.1) ?_
  rw [Object.metadata_maybeMutate]
  exact checkLabels_eq_ok_iff.mp hlabels e he

/-- An applied object has all labels of the cluster iff the overrides keep them. -/
theorem labels_of_requests_add_iff (htypes : types.IsDocumented) {self : ClusterResources}
    {w : World api} {k : Kind} {resource object : Object F k} {fieldManager : Option String}
    (happlied : (self.add types client w resource).2.2.requests =
      .apply k fieldManager object :: w.requests) :
    (∀ e ∈ self.expectedLabels, object.metadata.label? e.1 = some e.2) ↔
      self.KeepsLabels types resource := by
  refine forall₂_congr fun e he => ?_
  rw [label?_of_requests_add htypes happlied he]
  cases lastSet (fun o => o.metadata.label? e.1)
    (mergesFor types self.objectOverrides resource) <;> simp

/-- **Labels and garbage collection**: an applied object has, for each label of the cluster, what
the last override sets, and the expected value if no override sets it; so it has all labels of the
cluster iff the overrides keep them.

Consider a later reconcile of the same cluster, in which the object that `add` returned is still
stored but was not added. If the overrides keep the labels, and the resource is in the namespace of
the cluster and owned by it, the object is deleted when the deletion finishes without an error, if
its kind may be listed. If the overrides do not keep the labels, the object stays. -/
theorem add_labels (hapi : api.IsDocumented) (htypes : types.IsDocumented)
    {self : ClusterResources} {w : World api} {k : Kind} {resource object : Object F k}
    {fieldManager : Option String}
    (happlied : (self.add types client w resource).2.2.requests =
      .apply k fieldManager object :: w.requests) :
    (∀ e ∈ self.expectedLabels, object.metadata.label? e.1 =
      some ((lastSet (fun o => o.metadata.label? e.1)
        (mergesFor types self.objectOverrides resource)).getD e.2)) ∧
    ((∀ e ∈ self.expectedLabels, object.metadata.label? e.1 = some e.2) ↔
      self.KeepsLabels types resource) ∧
    ∀ patched, (self.add types client w resource).1 = .ok patched →
      ∀ (strategy : ClusterResourceApplyStrategy) (overrides : ObjectOverrides)
        (ids : Finset String) (crds : Bool) (schedule : List { k // k ∈ deletionKinds crds })
        (w₀ : World api),
      strategy.deleteOrphans = true → w₀.Stored k patched →
      (∀ id ∈ ids, patched.metadata.uid ≠ some id) →
      let later : ClusterResources :=
        { self with applyStrategy := strategy, objectOverrides := overrides, resourceIds := ids }
      let d := later.deleteOrphanedResources crds w₀ schedule
      (self.KeepsLabels types resource → resource.metadata.namespace = some self.namespace →
        resource.metadata.isOwnedBy self.clusterUid = true →
        ∀ hk : k ∈ deletionKinds crds, d.IsOk → d.tasks ⟨k, hk⟩ ≠ .skipped →
          Deleted d.world patched) ∧
      (¬ self.KeepsLabels types resource → d.world.Stored k patched) := by
  have hiff := labels_of_requests_add_iff htypes happlied
  refine ⟨fun e he => label?_of_requests_add htypes happlied he, hiff, ?_⟩
  intro patched hpatched strategy overrides ids crds schedule w₀ hstrategy hstored hids later d
  obtain ⟨-, hoverrides⟩ := applyTo_of_requests_add happlied
  obtain ⟨n, name, manager, hpatch⟩ := exists_patch_of_add_eq_ok (Prod.ext hpatched rfl) happlied
  obtain ⟨hnamespace, hlabel, howned⟩ := hapi.metadata_patch hpatch
  refine ⟨?_, ?_⟩
  · intro hkeeps hns hown hk hok hlisted
    have hbelongs : later.Belongs patched.metadata := by
      refine ⟨hnamespace _ ?_, fun e he => hlabel _ _ (hiff.mpr hkeeps e he), howned _ ?_⟩
      · rw [namespace_applyTo htypes hoverrides, Object.metadata_maybeMutate, hns]
      · refine isOwnedBy_applyTo htypes hoverrides ?_
        rw [Object.metadata_maybeMutate, hown]
    exact deleted_of_isOk hapi hstrategy hok hlisted hstored hbelongs hids
  · -- an object without the labels of the cluster is no orphan
    intro hlost
    by_contra hgone
    refine hlost fun e he v hv => ?_
    have hsafe : later.Safe crds w₀ d.world :=
      (invariant_deleteOrphanedResources hapi hstrategy w₀ schedule).safe
    obtain ⟨-, horphan⟩ := hsafe.gone k patched hstored hgone
    have happ := hlabel _ _ (label?_of_requests_add htypes happlied he)
    rw [horphan.belongs.labels e he, hv] at happ
    exact (Option.some.inj happ).symm

/-- An override of the label of the ConfigMap `"new"` for the name of the application. -/
def labelOverride (appName : String) : DynamicObject where
  types := some ⟨"v1", "ConfigMap"⟩
  metadata := ⟨some "new", none, some "default",
    some (IterMap.collect (M := BTreeMap String) [(k8sAppNameKey, appName)]), none, none⟩
  data := .null

/-- Add the ConfigMap `"new"`, with an override of its label for the name of the application. -/
def labelAdd (appName : String) :
    Except Error (Object Unit .configMap) × ClusterResources × World (Store.api Unit) :=
  (simpleHdfs .default [labelOverride appName]).add unitTypes ⟨none⟩ simpleWorld
    (simpleObject .configMap "new" none ())

/-- If the override sets the expected label, a later reconcile without overrides deletes the
ConfigMap. -/
theorem add_labels_simpleHdfs : ∃ patched, (labelAdd "hdfs").1 = .ok patched ∧
    Deleted ((simpleHdfs .default []).deleteOrphanedResources true (labelAdd "hdfs").2.2
      (rounds 4)).world patched := by
  have happlied : ∃ object : Object Unit .configMap, (labelAdd "hdfs").2.2.requests =
      .apply .configMap none object :: simpleWorld.requests ∧
      ∀ e ∈ (simpleHdfs .default [labelOverride "hdfs"]).expectedLabels,
        object.metadata.label? e.1 = some e.2 := ⟨_, rfl, by decide⟩
  obtain ⟨object, happlied, hlabels⟩ := happlied
  obtain ⟨-, hiff, hlater⟩ :=
    add_labels Store.isDocumented_api isDocumented_unitTypes happlied
  refine ⟨_, rfl, (hlater _ rfl .default [] ∅ true (rounds 4) (labelAdd "hdfs").2.2 rfl
    ⟨("default", "new"), rfl⟩ (by simp)).1 (hiff.mp hlabels) rfl rfl (by decide) ⟨rfl, ?_⟩
    fun h => by cases h⟩
  rintro ⟨k, hk⟩
  cases k <;> exact .inl rfl

/-- The object that is applied can have another label than the cluster. -/
theorem add_labels_labelOverride : ∃ object : Object Unit .configMap,
    (labelAdd "other").2.2.requests = .apply .configMap none object :: simpleWorld.requests ∧
    object.metadata.label? k8sAppNameKey = some "other" :=
  ⟨_, rfl, rfl⟩

end ClusterResources

end StackableOperator
