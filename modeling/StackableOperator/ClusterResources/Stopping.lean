import Mathlib
import StackableOperator.ClusterResources.Reconcile
import StackableOperator.Status.Workloads

/-!
# Stopping a cluster

An administrator stops a cluster, or pauses its reconciliation, with its `ClusterOperation`. The
conditions of the cluster and the strategy of its reconciles are both made from it.

`stopped_or_deleted_of_reach` says what the condition `Stopped` promises. Once a reconcile with
this condition has come to its end for a kind, every object of the kind that belongs to the
cluster is stopped, or a request to delete it succeeded; and this stays so, no matter how reconciles
overlap, until the cluster is neither stopped nor paused.

* `Quiet` says what all of these reconciles do to the objects of the cluster: those that they
  apply are stopped.
* `StopsSoFar` is what a stopping reconcile has achieved so far.
-/

namespace StackableOperator

/-! ### The model of the source -/

/-- The strategy for an operation; a paused reconciliation takes precedence. -/
def ClusterResourceApplyStrategy.ofClusterOperation (commonsSpec : ClusterOperation) :
    ClusterResourceApplyStrategy :=
  if commonsSpec.reconciliationPaused then .reconciliationPaused
  else if commonsSpec.stopped then .clusterStopped
  else .default

/-- The condition says that the cluster is stopped iff it is reconciled to be stopped. -/
theorem ClusterResourceApplyStrategy.ofClusterOperation_eq_clusterStopped_iff
    (op : ClusterOperation) : ofClusterOperation op = .clusterStopped ↔
      (ClusterOperationsConditionBuilder.mk op).clusterStopped.status = .true := by
  obtain ⟨stopped, paused⟩ := op
  cases stopped <;> cases paused <;>
    simp [ofClusterOperation, ClusterOperationsConditionBuilder.clusterStopped]

namespace Object

variable {F : Type}

/-- A StatefulSet or a Deployment has no replicas; no node satisfies the node selector of a
DaemonSet. Objects of other kinds need not be stopped. -/
def IsStopped : {k : Kind} → Object F k → Prop
  | .statefulSet, self => replicas self.contents = some 0
  | .deployment, self => replicas self.contents = some 0
  | .daemonSet, self => nodeSelector? self.contents doNotSchedule.1 = some doNotSchedule.2
  | _, _ => True

/-- The object has the contents that were applied. -/
def HasApplied : {k : Kind} → (applied self : Object F k) → Prop
  | .statefulSet, applied, self =>
    ∀ n, replicas applied.contents = some n → replicas self.contents = some n
  | .deployment, applied, self =>
    ∀ n, replicas applied.contents = some n → replicas self.contents = some n
  | .daemonSet, applied, self => ∀ selector,
    nodeSelector applied.contents = some selector → nodeSelector self.contents = some selector
  | _, _, _ => True

theorem HasApplied.refl {k : Kind} {applied self : Object F k}
    (h : applied.contents = self.contents) : HasApplied applied self := by
  cases k <;> simp_all [HasApplied]

theorem IsStopped.of_hasApplied {k : Kind} {applied self : Object F k} (h : applied.IsStopped)
    (happlied : HasApplied applied self) : self.IsStopped := by
  cases k with
  | statefulSet | deployment => exact happlied 0 h
  | daemonSet =>
    obtain ⟨selector, hselector, hentry⟩ := Option.bind_eq_some_iff.mp h
    exact Option.bind_eq_some_iff.mpr ⟨selector, happlied selector hselector, hentry⟩
  | _ => trivial

theorem IsStopped.of_contents_eq {k : Kind} {old self : Object F k} (h : old.IsStopped)
    (hcontents : old.contents = self.contents) : self.IsStopped :=
  h.of_hasApplied (.refl hcontents)

end Object

/-! ### Contents and uids -/

/-- The documented behaviour of the requests that write, as to the contents of objects: an object
that is stored after a patch request was stored before or is what was applied; a delete request
changes no contents. -/
structure KubeApi.AppliesContents {F : Type} (api : KubeApi F) : Prop where
  stored_patch_cases : ∀ {s k n name manager object o},
    api.stored (api.patch s k n name manager object).2 k o → api.stored s k o ∨
      o.metadata.namespace = some n ∧
      (∀ key v, object.metadata.label? key = some v → o.metadata.label? key = some v) ∧
      Object.HasApplied object o
  hasApplied_patch : ∀ {s k n name manager object o s'},
    api.patch s k n name manager object = (.ok o, s') → Object.HasApplied object o
  stored_delete_cases : ∀ {s k n name k' o}, api.stored (api.delete s k n name).2 k' o →
    ∃ old, api.stored s k' old ∧ old.metadata = o.metadata ∧ old.contents = o.contents

/-- The documented meaning of uids: different objects have different uids. States in which this is
so go over into such states. -/
structure KubeApi.GivesUids {F : Type} (api : KubeApi F) (valid : api.State → Prop) : Prop where
  eq_of_uid_eq : ∀ {s k k' o o' uid}, valid s → api.stored s k o → api.stored s k' o' →
    o.metadata.uid = some uid → o'.metadata.uid = some uid →
      (⟨k, o⟩ : (k : Kind) × Object F k) = ⟨k', o'⟩
  valid_get : ∀ {s k n name}, valid s → valid (api.get s k n name).2
  valid_list : ∀ {s k n selector}, valid s → valid (api.list s k n selector).2
  valid_patch : ∀ {s k n name manager object}, valid s →
    valid (api.patch s k n name manager object).2
  valid_delete : ∀ {s k n name}, valid s → valid (api.delete s k n name).2

namespace Store

variable {F : Type}

/-- What is stored is the object that was put, or was stored in another place. -/
theorem stored_put_cases {s : Store F} {k k' : Kind} {key : String × String} {o : Object F k} (ho)
    {o' : Object F k'} (h : (api F).stored (s.put key o ho) k' o') :
    (⟨k', o'⟩ : (k : Kind) × Object F k) = ⟨k, o⟩ ∨ (api F).stored s k' o' ∧
      (k' ≠ k ∨ o'.metadata.namespace ≠ some key.1 ∨ o'.metadata.name ≠ some key.2) := by
  by_cases hplace : k' ≠ k ∨ o'.metadata.namespace ≠ some key.1 ∨ o'.metadata.name ≠ some key.2
  · exact .inr ⟨(stored_put_of_ne ho hplace).mp h, hplace⟩
  · simp only [not_or, not_not] at hplace
    obtain ⟨rfl, hnamespace, hname⟩ := hplace
    have hsame : o' = o := isDocumented_api.eq_of_name_eq h (stored_put s key o ho)
      (hnamespace.trans ho.1.symm) (hname.trans ho.2.symm)
    exact .inl (by rw [hsame])

theorem stored_of_stored_remove {s : Store F} {k k' : Kind} {key : String × String}
    {o : Object F k'} (h : (api F).stored (s.remove k key) k' o) : (api F).stored s k' o := by
  obtain ⟨key', h⟩ := h
  refine ⟨key', ?_⟩
  by_cases hk : k' = k
  · subst hk
    rw [objects_remove_self] at h
    by_cases hkey : key' = key
    · subst hkey
      rw [AList.lookup_erase] at h
      cases h
    · rwa [AList.lookup_erase_ne hkey] at h
  · rwa [objects_remove_of_ne s hk] at h

/-- The API server in memory applies contents. -/
theorem appliesContents_api : (api F).AppliesContents where
  stored_patch_cases := by
    intro s k n name manager object o h
    simp only [api] at h
    split at h
    · rename_i hkey
      obtain hnew | hold := stored_put_cases (by exact hkey) h
      · obtain rfl := eq_of_heq (Sigma.mk.inj hnew).2
        exact .inr ⟨hkey.1, fun _ _ => id, .refl rfl⟩
      · exact .inl hold.1
    · exact .inl h
  hasApplied_patch := by
    intro s k n name manager object o s' h
    simp only [api] at h
    split at h
    · obtain rfl := Except.ok.inj (Prod.mk.inj h).1
      exact .refl rfl
    · cases (Prod.mk.inj h).1
  stored_delete_cases := by
    intro s k n name k' o h
    simp only [api] at h
    split at h
    · exact ⟨o, stored_of_stored_remove h, rfl, rfl⟩
    · exact ⟨o, h, rfl, rfl⟩

/-- Uids are numbers, and each was given to one object. -/
structure IsNumbered (s : Store F) : Prop where
  number : ∀ {k o}, (api F).stored s k o → ∃ n < s.created, o.metadata.uid = some (toString n)
  unique : ∀ {k k' o o'}, (api F).stored s k o → (api F).stored s k' o' →
    o.metadata.uid = o'.metadata.uid → (⟨k, o⟩ : (k : Kind) × Object F k) = ⟨k', o'⟩

theorem isNumbered_empty : (empty : Store F).IsNumbered where
  number := by
    rintro k o ⟨key, h⟩
    cases h
  unique := by
    rintro k k' o o' ⟨key, h⟩
    cases h

/-- A new object is numbered with the next number, any other one keeps its uid. -/
theorem IsNumbered.put {s : Store F} (h : s.IsNumbered) {k : Kind} {key : String × String}
    {o : Object F k} (ho)
    (huid : o.metadata.uid = some ((((s.objects k).lookup key).bind fun o =>
      o.metadata.uid).getD (toString s.created))) : (s.put key o ho).IsNumbered := by
  have hnumber : ∃ n < s.created + 1, o.metadata.uid = some (toString n) := by
    cases hold : (s.objects k).lookup key with
    | none => exact ⟨s.created, Nat.lt_succ_self _, by rw [huid, hold]; rfl⟩
    | some old =>
      obtain ⟨n, hn, hold'⟩ := h.number ⟨key, hold⟩
      exact ⟨n, Nat.lt_succ_of_lt hn, by rw [huid, hold, Option.bind_some, hold']; rfl⟩
  -- the uid of the object was not given to an object in another place
  have hfresh : ∀ {k' : Kind} {o' : Object F k'}, (api F).stored s k' o' →
      (k' ≠ k ∨ o'.metadata.namespace ≠ some key.1 ∨ o'.metadata.name ≠ some key.2) →
        o.metadata.uid ≠ o'.metadata.uid := by
    intro k' o' hstored hplace heq
    obtain ⟨n', hn', huid'⟩ := h.number hstored
    cases hold : (s.objects k).lookup key with
    | none =>
      rw [huid, hold, huid'] at heq
      have := Nat.repr_injective (Option.some.inj heq)
      omega
    | some old =>
      obtain ⟨n, -, hold'⟩ := h.number ⟨key, hold⟩
      rw [huid, hold, Option.bind_some, hold', Option.getD_some, ← hold'] at heq
      cases h.unique ⟨key, hold⟩ hstored heq
      obtain ⟨hnamespace, hname⟩ := s.key_eq hold
      simp [hnamespace, hname] at hplace
  refine ⟨fun hstored => ?_, fun hstored hstored' heq => ?_⟩
  · obtain hnew | ⟨hold, -⟩ := stored_put_cases ho hstored
    · cases hnew
      exact hnumber
    · obtain ⟨n, hn, huid'⟩ := h.number hold
      exact ⟨n, Nat.lt_succ_of_lt hn, huid'⟩
  · obtain hnew | ⟨hold, hplace⟩ := stored_put_cases ho hstored
    · obtain hnew' | ⟨hold', hplace'⟩ := stored_put_cases ho hstored'
      · exact hnew.trans hnew'.symm
      · cases hnew
        exact absurd heq (hfresh hold' hplace')
    · obtain hnew' | ⟨hold', -⟩ := stored_put_cases ho hstored'
      · cases hnew'
        exact absurd heq.symm (hfresh hold hplace)
      · exact h.unique hold hold' heq

/-- The API server in memory gives uids. -/
theorem givesUids_api : (api F).GivesUids IsNumbered where
  eq_of_uid_eq := fun h hstored hstored' huid huid' =>
    h.unique hstored hstored' (huid.trans huid'.symm)
  valid_get := by
    intro s k n name h
    simp only [api]
    split <;> exact h
  valid_list := id
  valid_patch := by
    intro s k n name manager object h
    simp only [api]
    split
    · rename_i hkey
      exact h.put hkey rfl
    · exact h
  valid_delete := by
    intro s k n name h
    simp only [api]
    split
    · exact ⟨fun hstored => h.number (stored_of_stored_remove hstored),
        fun hstored hstored' => h.unique (stored_of_stored_remove hstored)
          (stored_of_stored_remove hstored')⟩
    · exact h

end Store

/-! ### Requests of a step -/

/-- What is sent between two moments: nothing, or one request. -/
inductive World.Sends {F : Type} {api : KubeApi F} (w : World api) : World api → Prop
  | nothing : Sends w w
  | get (k : Kind) (resourceName «namespace» : String) :
    Sends w (Client.get w k resourceName «namespace»).2
  | list (k : Kind) («namespace» : String) (selector : LabelSelector) :
    Sends w (Client.listWithLabelSelector w k «namespace» selector).2
  | apply (client : Client) (scope : String) {k : Kind} (object : Object F k) :
    Sends w (client.applyPatch w scope object).2
  | delete {k : Kind} (object : Object F k) : Sends w (Client.delete w object).2

namespace World.Sends

variable {F : Type} {api : KubeApi F} {w w' : World api}

theorem requests (h : w.Sends w') : w.requests <:+ w'.requests := by
  cases h with
  | nothing => exact List.suffix_refl _
  | get | list | apply | delete => exact List.suffix_cons _ _

theorem valid {valid : api.State → Prop} (huids : api.GivesUids valid) (h : w.Sends w')
    (hvalid : valid w.server) : valid w'.server := by
  cases h with
  | nothing => exact hvalid
  | get => exact huids.valid_get hvalid
  | list => exact huids.valid_list hvalid
  | apply => exact huids.valid_patch hvalid
  | delete => exact huids.valid_delete hvalid

end World.Sends

namespace ClusterResources

section Steps

variable {F : Type} {types : KubeTypes F} {api : KubeApi F} {client : Client}
  {self cluster : ClusterResources} {w w' w'' : World api}

theorem sends_add [Inhabited F] (cluster : ClusterResources) (w : World api) {k : Kind}
    (resource : Object F k) : w.Sends (cluster.add types client w resource).2.2 := by
  obtain hsame | ⟨mutated, -, hworld⟩ := cluster.world_add w resource
  · rw [hsame]
    exact .nothing
  · rw [hworld]
    unfold ClusterResourceApplyStrategy.run
    split
    · split
      · exact .nothing
      · exact .get _ _ _
    · exact .apply client _ mutated
    · exact .apply client _ mutated
    · exact .nothing

/-- A step of a deletion sends nothing, lists the deployed objects, or deletes one. -/
theorem world_deleteOrphanedResourcesOfKind (cluster : ClusterResources) (k : Kind)
    (t : DeletionTask F k) (w : World api) :
    (cluster.deleteOrphanedResourcesOfKind k t w).2 = w ∨
      (cluster.deleteOrphanedResourcesOfKind k t w).2 =
        (cluster.listDeployedClusterResources k w).2 ∨
      ∃ object : Object F k,
        (cluster.deleteOrphanedResourcesOfKind k t w).2 = (Client.delete w object).2 := by
  cases t with
  | start =>
    rw [deleteOrphanedResourcesOfKind]
    split
    · exact .inl rfl
    · refine .inr (.inl ?_)
      split <;> rename_i hlist <;> rw [hlist]
  | deleting rest =>
    cases rest with
    | nil => exact .inl rfl
    | cons object rest =>
      refine .inr (.inr ⟨object, ?_⟩)
      rw [deleteOrphanedResourcesOfKind]
      split <;> rename_i hdelete <;> rw [hdelete]
  | done | skipped => exact .inl rfl

theorem sends_deleteOrphanedResourcesOfKind (cluster : ClusterResources) (k : Kind)
    (t : DeletionTask F k) (w : World api) :
    w.Sends (cluster.deleteOrphanedResourcesOfKind k t w).2 := by
  obtain h | h | ⟨object, h⟩ := cluster.world_deleteOrphanedResourcesOfKind k t w <;> rw [h]
  · exact .nothing
  · exact .list k cluster.namespace cluster.labelSelector
  · exact .delete object

/-! ### Quiet steps -/

/-- Between two moments no object of the cluster was started: what belongs to it is stopped, or is
what it was before. -/
def Quiet (self : ClusterResources) (w w' : World api) : Prop :=
  ∀ k (o : Object F k), w'.Stored k o → self.Belongs o.metadata →
    o.IsStopped ∨ ∃ old : Object F k, w.Stored k old ∧ old.metadata = o.metadata ∧
      old.contents = o.contents

theorem Quiet.of_stored (h : ∀ k (o : Object F k), w'.Stored k o → w.Stored k o) :
    self.Quiet w w' :=
  fun k o hstored _ => .inr ⟨o, h k o hstored, rfl, rfl⟩

theorem Quiet.refl (self : ClusterResources) (w : World api) : self.Quiet w w :=
  .of_stored fun _ _ => id

theorem Quiet.trans (h : self.Quiet w w') (h' : self.Quiet w' w'') : self.Quiet w w'' := by
  intro k o hstored hbelongs
  obtain hstopped | ⟨mid, hmid, hmetadata, hcontents⟩ := h' k o hstored hbelongs
  · exact .inl hstopped
  · obtain hstopped | ⟨old, hold, hmetadata', hcontents'⟩ := h k mid hmid (hmetadata ▸ hbelongs)
    · exact .inl (hstopped.of_contents_eq hcontents)
    · exact .inr ⟨old, hold, hmetadata'.trans hmetadata, hcontents'.trans hcontents⟩

/-- Deleting is quiet, whatever is deleted. -/
theorem quiet_deleteOrphanedResourcesOfKind (hapi : api.IsDocumented)
    (hcontents : api.AppliesContents) (cluster : ClusterResources) (k : Kind)
    (t : DeletionTask F k) (w : World api) :
    self.Quiet w (cluster.deleteOrphanedResourcesOfKind k t w).2 := by
  obtain h | h | ⟨object, h⟩ := cluster.world_deleteOrphanedResourcesOfKind k t w <;> rw [h]
  · exact .refl self w
  · exact .of_stored fun k' o =>
      ((readOnly_listDeployedClusterResources hapi cluster k w).stored k' o).mp
  · exact fun k' o hstored _ => .inr (hcontents.stored_delete_cases hstored)

/-- The overrides that set what stops an object last set it so that the object is stopped. An
override with a node selector replaces the whole one, so that its own must have the entry that no
node satisfies. -/
def KeepsStopped (types : KubeTypes F) (cluster : ClusterResources) :
    {k : Kind} → Object F k → Prop
  | .statefulSet, resource => ∀ n, ObjectOverrides.lastSet (fun o => Object.replicas o.contents)
      (ObjectOverrides.mergesFor types cluster.objectOverrides resource) = some n → n = 0
  | .deployment, resource => ∀ n, ObjectOverrides.lastSet (fun o => Object.replicas o.contents)
      (ObjectOverrides.mergesFor types cluster.objectOverrides resource) = some n → n = 0
  | .daemonSet, resource => ∀ selector, ObjectOverrides.lastSet
      (fun o => Object.nodeSelector o.contents)
      (ObjectOverrides.mergesFor types cluster.objectOverrides resource) = some selector →
        IterMap.get? (M := BTreeMap String) selector Object.doNotSchedule.1 =
          some Object.doNotSchedule.2
  | _, _ => True

variable [Inhabited F]

/-- To stop a cluster, stopped objects are applied. -/
theorem isStopped_of_applyTo (htypes : types.IsDocumented)
    (hstrategy : cluster.applyStrategy = .clusterStopped) {k : Kind}
    {resource mutated : Object F k} (hkeeps : cluster.KeepsStopped types resource)
    (h : cluster.objectOverrides.applyTo types (resource.maybeMutate cluster.applyStrategy) =
      (mutated, .ok ())) : mutated.IsStopped := by
  have hmutated := ObjectOverrides.applyTo_eq_foldl htypes h
  rw [mergesFor_maybeMutate, hstrategy] at hmutated
  subst hmutated
  -- what the overrides set is what stops the object, and so is what they leave
  have hset : ∀ {β : Type} {last base : Option β} {v : β}, (∀ x, last = some x → x = v) →
      base = some v → last.or base = some v := by
    rintro β (_ | x) base v hlast hbase
    · exact hbase
    · rw [hlast x rfl, Option.some_or]
  cases k with
  | statefulSet =>
    exact (ObjectOverrides.observe_foldl htypes.replicas_mergeFrom_statefulSet _ _).trans
      (hset hkeeps (Object.replicas_stopReplicas resource.contents))
  | deployment =>
    exact (ObjectOverrides.observe_foldl htypes.replicas_mergeFrom_deployment _ _).trans
      (hset hkeeps (Object.replicas_stopReplicas resource.contents))
  | daemonSet =>
    set merges := ObjectOverrides.mergesFor types cluster.objectOverrides resource
    have hselector : Object.nodeSelector
        (merges.foldl types.mergeFrom (resource.maybeMutate .clusterStopped)).contents =
          (ObjectOverrides.lastSet (fun o => Object.nodeSelector o.contents) merges).or
            (Object.nodeSelector (Object.stopPods resource.contents)) :=
      @ObjectOverrides.observe_foldl F types .daemonSet _ (fun o => Object.nodeSelector o.contents)
        htypes.nodeSelector_mergeFrom merges _
    rw [Object.nodeSelector_stopPods, Option.or_some] at hselector
    refine Option.bind_eq_some_iff.mpr ⟨_, hselector, ?_⟩
    cases hlast : ObjectOverrides.lastSet (fun o => Object.nodeSelector o.contents) merges with
    | none => exact Object.get?_stoppedNodeSelector
    | some selector => exact hkeeps selector hlast
  | _ => trivial

/-- A reconcile that starts nothing in the cluster. -/
inductive LeavesStopped (types : KubeTypes F) (self cluster : ClusterResources)
    (resources : List ((k : Kind) × Object F k)) : Prop
  /-- Nothing is applied. -/
  | passive : cluster.applyStrategy.deleteOrphans = false →
      LeavesStopped types self cluster resources
  /-- The cluster is stopped or paused, and no override starts it. -/
  | operation {op : ClusterOperation} : cluster.applyStrategy = .ofClusterOperation op →
      op.stopped = true ∨ op.reconciliationPaused = true →
      (∀ r ∈ resources, cluster.KeepsStopped types r.2) →
      LeavesStopped types self cluster resources
  /-- Another cluster, which adds resources to another namespace. -/
  | elsewhere : (∀ r ∈ resources, r.2.getNamespace ≠ self.namespace) →
      LeavesStopped types self cluster resources
  /-- Another cluster, which adds resources with its own labels. -/
  | foreign : cluster.expectedLabels ≠ self.expectedLabels →
      (∀ r ∈ resources, cluster.KeepsLabels types r.2) →
      LeavesStopped types self cluster resources

omit [Inhabited F] in
theorem eq_clusterStopped_of_deleteOrphans {op : ClusterOperation}
    (hop : op.stopped = true ∨ op.reconciliationPaused = true)
    (h : (ClusterResourceApplyStrategy.ofClusterOperation op).deleteOrphans = true) :
    ClusterResourceApplyStrategy.ofClusterOperation op = .clusterStopped := by
  obtain ⟨stopped, paused⟩ := op
  cases stopped <;> cases paused <;>
    simp_all [ClusterResourceApplyStrategy.ofClusterOperation,
      ClusterResourceApplyStrategy.deleteOrphans]

/-- What such a reconcile applies is stopped if it belongs to the cluster. -/
theorem LeavesStopped.isStopped (htypes : types.IsDocumented) {k : Kind}
    {resource mutated o : Object F k} {resources : List ((k : Kind) × Object F k)}
    (h : self.LeavesStopped types cluster (⟨k, resource⟩ :: resources))
    {fieldManager : Option String}
    (hrequests : (cluster.add types client w resource).2.2.requests =
      .apply k fieldManager mutated :: w.requests)
    (hstrategy : cluster.applyStrategy.deleteOrphans = true)
    (hnamespace : o.metadata.namespace = some mutated.getNamespace)
    (hlabels : ∀ key v, mutated.metadata.label? key = some v → o.metadata.label? key = some v)
    (happlied : Object.HasApplied mutated o) (hbelongs : self.Belongs o.metadata) :
    o.IsStopped := by
  obtain ⟨-, hoverrides⟩ := applyTo_of_requests_add hrequests
  cases h with
  | passive hpassive => exact absurd (hstrategy.symm.trans hpassive) (by simp)
  | operation hop hstopped hkeeps =>
    rw [hop] at hstrategy
    have hclusterStopped := hop.trans (eq_clusterStopped_of_deleteOrphans hstopped hstrategy)
    exact (isStopped_of_applyTo htypes hclusterStopped (hkeeps _ List.mem_cons_self)
      hoverrides).of_hasApplied happlied
  | elsewhere hne =>
    have hsame : mutated.getNamespace = resource.getNamespace := by
      rw [Object.getNamespace, ObjectOverrides.namespace_applyTo htypes hoverrides,
        Object.metadata_maybeMutate, Object.getNamespace]
    refine absurd ?_ (hne _ List.mem_cons_self)
    rw [← hsame]
    exact Option.some.inj (hnamespace.symm.trans hbelongs.inNamespace)
  | foreign hne hkeeps =>
    -- the object has the labels of the other cluster
    have hmutated := (labels_of_requests_add_iff htypes hrequests).mpr
      (hkeeps _ List.mem_cons_self)
    exact absurd (Resident.expectedLabels_eq (fun e he => hlabels _ _ (hmutated e he))
      hbelongs.labels) hne

/-- Adding a resource of such a reconcile is quiet. -/
theorem LeavesStopped.quiet_add (hapi : api.IsDocumented) (hplace : api.AppliesInPlace)
    (hcontents : api.AppliesContents) (htypes : types.IsDocumented) {k : Kind}
    {resource : Object F k} {resources : List ((k : Kind) × Object F k)}
    (h : self.LeavesStopped types cluster (⟨k, resource⟩ :: resources)) (w : World api) :
    self.Quiet w (cluster.add types client w resource).2.2 := by
  by_cases hstrategy : cluster.applyStrategy.deleteOrphans = true
  · obtain hsame | ⟨mutated, -, hworld⟩ := cluster.world_add w resource
    · rw [hsame]
      exact .refl self w
    · rw [ClusterResourceApplyStrategy.run_of_deleteOrphans hstrategy] at hworld
      have hrequests : (cluster.add types client w resource).2.2.requests =
          .apply k (client.applyPatchParams cluster.manager) mutated :: w.requests := by
        rw [hworld]
        rfl
      rw [hworld]
      intro k' o hstored hbelongs
      -- the request concerns objects of its kind only
      by_cases hk : k' = k
      · subst hk
        obtain hold | ⟨hnamespace, hlabels, happlied⟩ := hcontents.stored_patch_cases hstored
        · exact .inr ⟨o, hold, rfl, rfl⟩
        · exact .inl (h.isStopped htypes hrequests hstrategy hnamespace hlabels happlied hbelongs)
      · exact .inr ⟨o, (hplace.stored_patch_of_ne (.inl hk)).mp hstored, rfl, rfl⟩
  · exact .of_stored fun k' o =>
      ((readOnly_add hapi (Bool.eq_false_iff.mpr hstrategy) w resource).1.stored k' o).mp

/-! ### What is stopped already -/

omit [Inhabited F]

/-- Since an earlier moment a request to delete the object succeeded. -/
def DeletedSince (w₀ w : World api) {k : Kind} (o : Object F k) : Prop :=
  ∃ sent, w.requests = sent ++ w₀.requests ∧
    Request.delete k o.getNamespace o.metadata.nameAny true ∈ sent

theorem DeletedSince.mono {w₀ : World api} {k : Kind} {o : Object F k}
    (h : DeletedSince w₀ w o) (hrequests : w.requests <:+ w'.requests) :
    DeletedSince w₀ w' o := by
  obtain ⟨sent, hsent, hmem⟩ := h
  obtain ⟨more, hmore⟩ := hrequests
  exact ⟨more ++ sent, by rw [← hmore, hsent, List.append_assoc], List.mem_append_right more hmem⟩

theorem DeletedSince.of_metadata_eq {w₀ : World api} {k : Kind} {old o : Object F k}
    (h : DeletedSince w₀ w old) (hmetadata : old.metadata = o.metadata) :
    DeletedSince w₀ w o := by
  unfold DeletedSince Object.getNamespace at h ⊢
  rwa [hmetadata] at h

/-- A successful request to delete an object. -/
theorem deletedSince_of_delete_eq_ok {w₀ : World api} {k : Kind} {object o : Object F k} {u : Unit}
    (hrequests : w₀.requests <:+ w.requests) (h : Client.delete w object = (.ok u, w'))
    (hmetadata : object.metadata = o.metadata) : DeletedSince w₀ w' o := by
  obtain ⟨sent, hsent⟩ := hrequests
  have hdeleted : w'.requests =
      .delete k object.getNamespace object.metadata.nameAny true :: w.requests := by
    unfold Client.delete at h
    cases hdelete : api.delete w.server k object.getNamespace object.metadata.nameAny with
    | mk answer s =>
      simp only [hdelete] at h
      cases answer with
      | error e => cases (Prod.mk.inj h).1
      | ok u' =>
        obtain ⟨-, rfl⟩ := Prod.mk.inj h
        rfl
  refine DeletedSince.of_metadata_eq ⟨_ :: sent, ?_, List.mem_cons_self⟩ hmetadata
  rw [hdeleted, ← hsent, List.cons_append]

/-- The objects of a kind that belong to the cluster are stopped or were deleted, provided that
their metadata is of some sort. -/
def IdleIf (self : ClusterResources) (w₀ w : World api) (k : Kind) (P : ObjectMeta → Prop) :
    Prop :=
  ∀ o : Object F k, w.Stored k o → self.Belongs o.metadata → P o.metadata →
    o.IsStopped ∨ DeletedSince w₀ w o

theorem IdleIf.of_quiet {w₀ : World api} {k : Kind} {P : ObjectMeta → Prop}
    (h : self.IdleIf w₀ w k P) (hquiet : self.Quiet w w')
    (hrequests : w.requests <:+ w'.requests) : self.IdleIf w₀ w' k P := by
  intro o hstored hbelongs hP
  obtain hstopped | ⟨old, hold, hmetadata, hcontents⟩ := hquiet k o hstored hbelongs
  · exact .inl hstopped
  · rw [← hmetadata] at hbelongs hP
    rcases h old hold hbelongs hP with hstopped | hdeleted
    · exact .inl (hstopped.of_contents_eq hcontents)
    · exact .inr ((hdeleted.of_metadata_eq hmetadata).mono hrequests)

/-- Resources of the same cluster. -/
structure IsSameCluster (target cluster : ClusterResources) : Prop where
  «namespace» : cluster.namespace = target.namespace
  labels : cluster.expectedLabels = target.expectedLabels
  clusterUid : cluster.clusterUid = target.clusterUid

/-- The reconcile is for the cluster, to stop it. -/
structure IsStoppedBy (target cluster : ClusterResources) : Prop
    extends IsSameCluster target cluster where
  strategy : cluster.applyStrategy = .clusterStopped

theorem IsSameCluster.belongs (h : self.IsSameCluster cluster) {metadata : ObjectMeta}
    (hbelongs : self.Belongs metadata) : cluster.Belongs metadata where
  inNamespace := h.namespace ▸ hbelongs.inNamespace
  labels := h.labels ▸ hbelongs.labels
  owned := h.clusterUid ▸ hbelongs.owned

/-- The object was added. -/
def HasRecorded (cluster : ClusterResources) (metadata : ObjectMeta) : Prop :=
  ∃ id ∈ cluster.resourceIds, metadata.uid = some id

/-- What was added is stopped. -/
theorem idleIf_hasRecorded_of_add [Inhabited F] (hapi : api.IsDocumented)
    (hplace : api.AppliesInPlace) (hcontents : api.AppliesContents) (htypes : types.IsDocumented)
    {valid : api.State → Prop} (huids : api.GivesUids valid) (hvalid : valid w.server)
    {w₀ : World api} {cluster' : ClusterResources} {k : Kind} {resource patched : Object F k}
    {resources : List ((k : Kind) × Object F k)}
    (hleaves : self.LeavesStopped types cluster (⟨k, resource⟩ :: resources))
    (hstrategy : cluster.applyStrategy.deleteOrphans = true)
    (hrecorded : ∀ k, self.IdleIf w₀ w k cluster.HasRecorded)
    (hadd : cluster.add types client w resource = (.ok patched, cluster', w')) :
    ∀ k, self.IdleIf w₀ w' k cluster'.HasRecorded := by
  have hquiet : self.Quiet w (cluster.add types client w resource).2.2 :=
    hleaves.quiet_add hapi hplace hcontents htypes w
  have hsends : w.Sends (cluster.add types client w resource).2.2 := sends_add cluster w resource
  have hrequests : (cluster.add types client w resource).2.2 = w' := by rw [hadd]
  obtain ⟨-, mutated, resourceId, -, hrun, huid, rfl⟩ := add_eq_ok hadd
  obtain ⟨hpatch, happly⟩ := ClusterResourceApplyStrategy.patch_of_run_eq_ok hstrategy hrun
  rw [← hrequests] at happly
  rw [hrequests] at hquiet hsends
  rintro k' o hstored hbelongs ⟨id, hid, hid'⟩
  rcases Finset.mem_insert.mp hid with rfl | hid
  · -- the object with the uid of the answer is the answer
    cases huids.eq_of_uid_eq (hsends.valid huids hvalid) hstored (hapi.stored_patch hpatch).1
      hid' huid
    exact .inl (hleaves.isStopped htypes happly hstrategy (hplace.key_patch hpatch).1
      (hapi.metadata_patch hpatch).2.1 (hcontents.hasApplied_patch hpatch) hbelongs)
  · exact (hrecorded k').of_quiet hquiet hsends.requests o hstored hbelongs ⟨id, hid, hid'⟩

/-- What a task of a stopping reconcile has achieved. -/
def StopsSoFar (self : ClusterResources) (w₀ w : World api) (k : Kind) : DeletionTask F k → Prop
  | .deleting rest => self.IdleIf w₀ w k fun metadata => ∀ r ∈ rest, r.metadata ≠ metadata
  | .done => self.IdleIf w₀ w k fun _ => True
  | .start | .skipped => True

theorem StopsSoFar.of_quiet {w₀ : World api} {k : Kind} {t : DeletionTask F k}
    (h : self.StopsSoFar w₀ w k t) (hquiet : self.Quiet w w')
    (hrequests : w.requests <:+ w'.requests) : self.StopsSoFar w₀ w' k t := by
  cases t with
  | deleting rest =>
    have hidle : self.IdleIf w₀ w k fun metadata => ∀ r ∈ rest, r.metadata ≠ metadata := h
    exact hidle.of_quiet hquiet hrequests
  | done =>
    have hidle : self.IdleIf w₀ w k fun _ => True := h
    exact hidle.of_quiet hquiet hrequests
  | start | skipped => trivial

/-- **One step of a task** of a stopping reconcile: what is deployed was added or is to be deleted,
and a task that has nothing left to delete is done. -/
theorem StopsSoFar.resume (hapi : api.IsDocumented) (hcontents : api.AppliesContents)
    (hstopped : self.IsStoppedBy cluster) {w₀ : World api} (hsent : w₀.requests <:+ w.requests)
    {k : Kind} (hrecorded : self.IdleIf w₀ w k cluster.HasRecorded) {t t' : DeletionTask F k}
    (h : self.StopsSoFar w₀ w k t)
    (hresume : cluster.deleteOrphanedResourcesOfKind k t w = (.ok t', w')) :
    self.StopsSoFar w₀ w' k t' := by
  have hquiet : self.Quiet w w' := by
    have hquiet : self.Quiet w (cluster.deleteOrphanedResourcesOfKind k t w).2 :=
      quiet_deleteOrphanedResourcesOfKind hapi hcontents cluster k t w
    rwa [hresume] at hquiet
  have hrequests : w.requests <:+ w'.requests := by
    have hsends := (cluster.sends_deleteOrphanedResourcesOfKind k t w).requests
    rwa [hresume] at hsends
  cases t with
  | start =>
    rw [deleteOrphanedResourcesOfKind, hstopped.strategy, if_neg (by decide)] at hresume
    split at hresume
    · rename_i deployed w₁ hdeployed
      obtain ⟨htask, rfl⟩ := Prod.mk.inj hresume
      cases horphaned : cluster.orphanedResources deployed with
      | error e =>
        rw [horphaned] at htask
        cases htask
      | ok orphaned =>
        rw [horphaned] at htask
        obtain rfl := Except.ok.inj htask
        intro o hstored hbelongs hnot
        have hread := readOnly_listDeployedClusterResources hapi cluster k w
        rw [hdeployed] at hread
        have hmem : o ∈ deployed := (mem_listDeployedClusterResources hapi hdeployed o).mpr
          ⟨(hread.stored k o).mp hstored, hstopped.belongs hbelongs⟩
        obtain ⟨id, huid, horphan⟩ := (orphanedResources_eq_ok horphaned).2 o hmem
        -- a deployed object was added, and then it is stopped, or it is an orphan
        by_cases hid : id ∈ cluster.resourceIds
        · exact hrecorded.of_quiet hquiet hrequests o hstored hbelongs ⟨id, hid, huid⟩
        · exact absurd rfl (hnot o (horphan hid))
    · obtain rfl := Except.ok.inj (Prod.mk.inj hresume).1
      trivial
    · cases (Prod.mk.inj hresume).1
  | deleting rest =>
    cases rest with
    | nil =>
      obtain rfl := Except.ok.inj (Prod.mk.inj hresume).1
      have hidle : self.IdleIf w₀ w k fun metadata =>
        ∀ r ∈ ([] : List (Object F k)), r.metadata ≠ metadata := h
      exact fun o hstored hbelongs _ =>
        hidle.of_quiet hquiet hrequests o hstored hbelongs (by simp)
    | cons object rest =>
      have hidle : self.IdleIf w₀ w k fun metadata => ∀ r ∈ object :: rest, r.metadata ≠ metadata :=
        h
      rw [deleteOrphanedResourcesOfKind] at hresume
      split at hresume
      · rename_i hdelete
        obtain ⟨htask, rfl⟩ := Prod.mk.inj hresume
        obtain rfl := Except.ok.inj htask
        intro o hstored hbelongs hnot
        -- an object that is left behind with this metadata is the one that was deleted
        by_cases hmetadata : object.metadata = o.metadata
        · exact .inr (deletedSince_of_delete_eq_ok hsent hdelete hmetadata)
        · exact hidle.of_quiet hquiet hrequests o hstored hbelongs
            (List.forall_mem_cons.mpr ⟨hmetadata, hnot⟩)
      · cases (Prod.mk.inj hresume).1
  | done =>
    obtain rfl := Except.ok.inj (Prod.mk.inj hresume).1
    exact h.of_quiet hquiet hrequests
  | skipped =>
    obtain rfl := Except.ok.inj (Prod.mk.inj hresume).1
    trivial

/-! ### Reconciles -/

variable {crds : Bool}

/-- The invariant of a reconcile: it starts nothing in the cluster, and if it is to stop the
cluster, what it has added or deleted does not run. -/
def Stops (types : KubeTypes F) (self : ClusterResources) (w₀ w : World api) :
    Reconcile F crds → Prop
  | .adding cluster resources => self.LeavesStopped types cluster resources ∧
      (self.IsStoppedBy cluster → ∀ k, self.IdleIf w₀ w k cluster.HasRecorded)
  | .deleting cluster tasks => self.IsStoppedBy cluster →
      (∀ k, self.IdleIf w₀ w k cluster.HasRecorded) ∧
        ∀ k : { k // k ∈ deletionKinds crds }, self.StopsSoFar w₀ w k (tasks k)
  | .ended => True

theorem Stops.of_quiet {w₀ : World api} {p : Reconcile F crds} (h : self.Stops types w₀ w p)
    (hquiet : self.Quiet w w') (hrequests : w.requests <:+ w'.requests) :
    self.Stops types w₀ w' p := by
  cases p with
  | adding cluster resources =>
    obtain ⟨hleaves, hrecorded⟩ := h
    exact ⟨hleaves, fun hstopped k => (hrecorded hstopped k).of_quiet hquiet hrequests⟩
  | deleting cluster tasks =>
    intro hstopped
    obtain ⟨hrecorded, htasks⟩ := h hstopped
    exact ⟨fun k => (hrecorded k).of_quiet hquiet hrequests,
      fun k => (htasks k).of_quiet hquiet hrequests⟩
  | ended => trivial

/-- What is left to add starts nothing either. -/
theorem LeavesStopped.of_cons {r : (k : Kind) × Object F k}
    {resources : List ((k : Kind) × Object F k)} {ids : Finset String}
    (h : self.LeavesStopped types cluster (r :: resources)) :
    self.LeavesStopped types { cluster with resourceIds := ids } resources := by
  cases h with
  | passive hpassive => exact .passive hpassive
  | operation hop hstopped hkeeps =>
    exact .operation hop hstopped fun r hr => hkeeps r (List.mem_cons_of_mem _ hr)
  | elsewhere hne => exact .elsewhere fun r hr => hne r (List.mem_cons_of_mem _ hr)
  | foreign hne hkeeps => exact .foreign hne fun r hr => hkeeps r (List.mem_cons_of_mem _ hr)

/-- **One step of a reconcile** is quiet and keeps its invariant. -/
theorem Stops.next [Inhabited F] (hapi : api.IsDocumented) (hplace : api.AppliesInPlace)
    (hcontents : api.AppliesContents) (htypes : types.IsDocumented) {valid : api.State → Prop}
    (huids : api.GivesUids valid) (hvalid : valid w.server) {w₀ : World api}
    (hsent : w₀.requests <:+ w.requests) {p p' : Reconcile F crds}
    (h : self.Stops types w₀ w p) (hnext : Reconcile.Next types client p w p' w') :
    w.Sends w' ∧ self.Quiet w w' ∧ self.Stops types w₀ w' p' := by
  cases hnext with
  | @add cluster cluster' k resource resources patched _ _ hadd =>
    obtain ⟨hleaves, hrecorded⟩ := h
    have hsends : w.Sends (cluster.add types client w resource).2.2 := sends_add cluster w resource
    have hquiet : self.Quiet w (cluster.add types client w resource).2.2 :=
      hleaves.quiet_add hapi hplace hcontents htypes w
    rw [hadd] at hsends hquiet
    have hadd' := hadd
    obtain ⟨-, _, resourceId, -, -, -, rfl⟩ := add_eq_ok hadd
    -- only the recorded ids of the cluster have changed
    refine ⟨hsends, hquiet, hleaves.of_cons, fun hstopped => ?_⟩
    have hcluster : self.IsStoppedBy cluster :=
      ⟨⟨hstopped.namespace, hstopped.labels, hstopped.clusterUid⟩, hstopped.strategy⟩
    have hstrategy : cluster.applyStrategy.deleteOrphans = true := by
      rw [hcluster.strategy]
      rfl
    exact idleIf_hasRecorded_of_add hapi hplace hcontents htypes huids hvalid hleaves hstrategy
      (hrecorded hcluster) hadd'
  | @addError cluster _ k resource _ _ _ _ hadd =>
    have hsends : w.Sends (cluster.add types client w resource).2.2 := sends_add cluster w resource
    have hquiet : self.Quiet w (cluster.add types client w resource).2.2 :=
      h.1.quiet_add hapi hplace hcontents htypes w
    rw [hadd] at hsends hquiet
    exact ⟨hsends, hquiet, trivial⟩
  | delete =>
    exact ⟨.nothing, .refl self w, fun hstopped => ⟨h.2 hstopped, fun _ => trivial⟩⟩
  | @resume cluster tasks _ _ k t hresume =>
    have hsends := cluster.sends_deleteOrphanedResourcesOfKind k (tasks k) w
    have hquiet : self.Quiet w (cluster.deleteOrphanedResourcesOfKind k (tasks k) w).2 :=
      quiet_deleteOrphanedResourcesOfKind hapi hcontents cluster k (tasks k) w
    rw [hresume] at hsends hquiet
    refine ⟨hsends, hquiet, fun hstopped => ?_⟩
    obtain ⟨hrecorded, htasks⟩ := h hstopped
    refine ⟨fun k' => (hrecorded k').of_quiet hquiet hsends.requests, fun k' => ?_⟩
    by_cases hk : k' = k
    · subst hk
      rw [Function.update_self]
      exact StopsSoFar.resume hapi hcontents hstopped hsent (hrecorded k') (htasks k') hresume
    · rw [Function.update_of_ne hk]
      exact (htasks k').of_quiet hquiet hsends.requests
  | @resumeError cluster tasks _ _ _ k hresume =>
    have hsends := cluster.sends_deleteOrphanedResourcesOfKind k (tasks k) w
    have hquiet : self.Quiet w (cluster.deleteOrphanedResourcesOfKind k (tasks k) w).2 :=
      quiet_deleteOrphanedResourcesOfKind hapi hcontents cluster k (tasks k) w
    rw [hresume] at hsends hquiet
    exact ⟨hsends, hquiet, trivial⟩
  | stop => exact ⟨.nothing, .refl self w, trivial⟩

/-- The reconciles that start nothing in the cluster; each begins without recorded ids. -/
def startsNothing (types : KubeTypes F) (self : ClusterResources) (cluster : ClusterResources)
    (resources : List ((k : Kind) × Object F k)) : Prop :=
  cluster.resourceIds = ∅ ∧ self.LeavesStopped types cluster resources

/-- What holds of the API server between two moments. -/
structure QuietRun (target : ClusterResources) (valid : api.State → Prop) (w₀ w w' : World api) :
    Prop where
  server : valid w'.server
  sent : w₀.requests <:+ w'.requests
  requests : w.requests <:+ w'.requests
  quiet : target.Quiet w w'

/-- **Runs are quiet**, and the reconciles keep their invariants. -/
theorem quietRun_of_reach [Inhabited F] (hapi : api.IsDocumented) (hplace : api.AppliesInPlace)
    (hcontents : api.AppliesContents) (htypes : types.IsDocumented) {valid : api.State → Prop}
    (huids : api.GivesUids valid) (hvalid : valid w.server) {w₀ : World api}
    (hsent : w₀.requests <:+ w.requests) {ps ps' : List (Reconcile F crds)}
    (hps : ∀ p ∈ ps, self.Stops types w₀ w p)
    (hreach : (reconciles types client api crds (self.startsNothing types)).Reach (w, ps)
      (w', ps')) :
    self.QuietRun valid w₀ w w' ∧ ∀ p ∈ ps', self.Stops types w₀ w' p := by
  have hinv := Interleaving.invariant (I := self.QuietRun valid w₀ w)
    (J := fun v => self.Stops types w₀ v) ?_ ?_ ?_ hreach
    ⟨⟨hvalid, hsent, List.suffix_refl _, .refl self w⟩, hps⟩
  · exact ⟨hinv.world, hinv.processes⟩
  · rintro v p hv ⟨cluster, resources, rfl, hempty, hleaves⟩
    refine ⟨hleaves, fun _ k o _ _ hrecorded => ?_⟩
    obtain ⟨id, hid, -⟩ := hrecorded
    rw [hempty] at hid
    cases hid
  · intro v p v' p' hv hp hnext
    obtain ⟨hsends, hquiet, hp'⟩ :=
      hp.next hapi hplace hcontents htypes huids hv.server hv.sent hnext
    exact ⟨⟨hsends.valid huids hv.server, hv.sent.trans hsends.requests,
      hv.requests.trans hsends.requests, hv.quiet.trans hquiet⟩, hp'⟩
  · intro v p v' p' q hv hp hnext hq
    obtain ⟨hsends, hquiet, -⟩ :=
      hp.next hapi hplace hcontents htypes huids hv.server hv.sent hnext
    exact hq.of_quiet hquiet hsends.requests

/-- **A stopped cluster stays stopped**: any number of reconciles run, in any interleaving, each of
which may fail or end at any moment. Those of the cluster stop it or are paused, with overrides that
do not start it; those of other clusters keep to their namespace or their labels. If the condition
`Stopped` of a reconcile of the cluster is true and its task for a kind is done, then at any later
moment every stored object of the kind that belongs to the cluster is stopped, or a request to
delete it succeeded. -/
theorem stopped_or_deleted_of_reach [Inhabited F] (hapi : api.IsDocumented)
    (hplace : api.AppliesInPlace) (hcontents : api.AppliesContents) (htypes : types.IsDocumented)
    {valid : api.State → Prop} (huids : api.GivesUids valid) (hvalid : valid w.server)
    {ps ps' : List (Reconcile F crds)}
    (hreach : (reconciles types client api crds (self.startsNothing types)).Reach (w, []) (w', ps))
    {op : ClusterOperation}
    (hcondition : (ClusterOperationsConditionBuilder.mk op).clusterStopped.status = .true)
    (hcluster : self.IsSameCluster cluster)
    (hstrategy : cluster.applyStrategy = .ofClusterOperation op)
    {tasks : (k : { k // k ∈ deletionKinds crds }) → DeletionTask F k}
    (hmem : .deleting cluster tasks ∈ ps) {k : { k // k ∈ deletionKinds crds }}
    (hdone : tasks k = .done)
    (hlater : (reconciles types client api crds (self.startsNothing types)).Reach (w', ps)
      (w'', ps'))
    {o : Object F k} (hstored : w''.Stored k o) (hbelongs : self.Belongs o.metadata) :
    o.IsStopped ∨ DeletedSince w w'' o := by
  have hclusterStopped := hstrategy.trans
    ((ClusterResourceApplyStrategy.ofClusterOperation_eq_clusterStopped_iff op).mpr hcondition)
  obtain ⟨hrun, hps⟩ := quietRun_of_reach hapi hplace hcontents htypes huids hvalid
    (List.suffix_refl w.requests) (by simp) hreach
  have htask := ((hps _ hmem) ⟨hcluster, hclusterStopped⟩).2 k
  rw [hdone] at htask
  have hidle : self.IdleIf w w' k fun _ => True := htask
  -- from then on nothing of the cluster is started
  obtain ⟨hrun', -⟩ := quietRun_of_reach hapi hplace hcontents htypes huids hrun.server hrun.sent
    hps hlater
  exact hidle.of_quiet hrun'.quiet hrun'.requests o hstored hbelongs trivial

end Steps

/-! ### A cluster in memory -/

/-- A StatefulSet of this cluster runs with three replicas. -/
def runningWorld : World (Store.api Unit) where
  server := ((Store.api Unit).patch Store.empty .statefulSet "default" "old" none
    (simpleObject .statefulSet "old" none (some ⟨some 3, ()⟩))).2
  requests := []

/-- Stop the cluster, which has another StatefulSet now. -/
def stoppingAdd : Except Error (List ((k : Kind) × Object Unit k)) × ClusterResources ×
    World (Store.api Unit) :=
  (simpleHdfs .clusterStopped []).addAll unitTypes ⟨none⟩ runningWorld
    [⟨.statefulSet, simpleStatefulSet⟩]

/-- Delete its orphaned resources. -/
def stoppingDeletion : Deletion (Store.api Unit) true :=
  stoppingAdd.2.1.deleteOrphanedResources true stoppingAdd.2.2 (rounds 3)

/-- The StatefulSet as it is stored. -/
def stoppedStatefulSet : Object Unit .statefulSet :=
  simpleObject .statefulSet "new" (some "1") (some ⟨some 0, ()⟩)

/-- The StatefulSet of the stopped cluster is stopped. -/
theorem stopped_or_deleted_of_reach_simpleHdfs : stoppedStatefulSet.IsStopped ∨
    DeletedSince runningWorld stoppingDeletion.world stoppedStatefulSet := by
  have hadd : stoppingAdd = (.ok [⟨.statefulSet, stoppedStatefulSet⟩], stoppingAdd.2.1,
      stoppingAdd.2.2) := rfl
  have hstarts : (simpleHdfs .default []).startsNothing unitTypes (simpleHdfs .clusterStopped [])
      [⟨.statefulSet, simpleStatefulSet⟩] := by
    refine ⟨rfl, @LeavesStopped.operation Unit unitTypes _ _ _ ⟨true, false⟩ rfl (.inl rfl) ?_⟩
    intro r hr
    obtain rfl := List.mem_singleton.mp hr
    intro n hn
    exact absurd hn (by simp [ObjectOverrides.lastSet, ObjectOverrides.mergesFor, simpleHdfs])
  have hdone : stoppingDeletion.tasks ⟨.statefulSet, by decide⟩ = .done := rfl
  have hcluster : (simpleHdfs .default []).IsSameCluster stoppingAdd.2.1 := ⟨rfl, rfl, rfl⟩
  have hcondition : (ClusterOperationsConditionBuilder.mk ⟨true, false⟩).clusterStopped.status =
    .true := rfl
  obtain ⟨p, hp, hreach⟩ := reach_deleteOrphanedResources hstarts hadd (rounds 3)
  obtain rfl := hp rfl
  exact stopped_or_deleted_of_reach Store.isDocumented_api Store.appliesInPlace_api
    Store.appliesContents_api isDocumented_unitTypes Store.givesUids_api
    (Store.givesUids_api.valid_patch Store.isNumbered_empty) hreach hcondition hcluster rfl
    List.mem_cons_self hdone .refl ⟨("default", "new"), rfl⟩ ⟨rfl, by decide, rfl⟩

end ClusterResources

end StackableOperator
