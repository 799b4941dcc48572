import Mathlib
import StackableOperator.ClusterResources.Add
import StackableOperator.Machines.TryJoin
import StackableOperator.Kube.InMemory

/-!
# Deleting orphaned resources

After the resources of a cluster were added, the resources that are deployed for the cluster but
were not added are orphaned. `ClusterResources.deleteOrphanedResources` deletes them, with one
task for each kind; the tasks run concurrently, and the first error ends all of them. A schedule
says in which order the requests of the tasks are answered.

The main result is `deleteOrphanedResources_safe_complete`. In every interleaving and at any
moment, only orphaned resources were deleted; if all tasks finished without an error, all orphaned
resources were deleted, except those of kinds that may not be listed. With the strategies that do
not apply resources, nothing is written from the first `add` on.

The invariant has one part for the world (`Safe`) and one for each task (`TaskInvariant`).
`stepSpec_deleteOrphanedResourcesOfKind` says that a step of one task keeps its own part and does
not touch the others.
-/

namespace StackableOperator

namespace ClusterResources

/-! ### The model of the source -/

/-- The kinds whose orphaned resources are deleted; listeners only with the feature `crds`. -/
def deletionKinds (crds : Bool) : List Kind :=
  [.service, .statefulSet, .daemonSet, .deployment, .job, .configMap, .secret, .serviceAccount,
    .roleBinding, .podDisruptionBudget] ++ if crds then [.listener] else []

/-- The selector for the labels of the cluster. -/
def labelSelector (self : ClusterResources) : LabelSelector where
  matchExpressions := some [
    ⟨k8sAppInstanceKey, "In", some [self.appInstance]⟩,
    ⟨k8sAppNameKey, "In", some [self.appName]⟩,
    ⟨k8sAppManagedByKey, "In", some [self.manager]⟩]
  matchLabels := none

/-- How far the deletion of one kind has come. -/
inductive DeletionTask (F : Type) (k : Kind) : Type
  | start
  | deleting (orphanedResources : List (Object F k))
  | done
  /-- The resources may not be listed. -/
  | skipped

section Model

variable {F : Type} {api : KubeApi F}

/-- List the deployed resources of a kind which the cluster owns directly. -/
def listDeployedClusterResources (self : ClusterResources) (k : Kind) (w : World api) :
    Except Client.Error (List (Object F k)) × World api :=
  let (answer, w) := Client.listWithLabelSelector w k self.namespace self.labelSelector
  (answer.map fun resources =>
    resources.filter fun resource => resource.metadata.isOwnedBy self.clusterUid, w)

/-- The deployed resources that were not added; each must have a uid. -/
def orphanedResources (self : ClusterResources) {k : Kind} :
    List (Object F k) → Except Error (List (Object F k))
  | [] => .ok []
  | resource :: resources =>
    match resource.metadata.uid with
    | none => .error (.missingObjectKey "metadata/uid")
    | some resourceId =>
      (orphanedResources self resources).map fun orphaned =>
        if resourceId ∈ self.resourceIds then orphaned else resource :: orphaned

/-- One step of the deletion of a kind, up to the next answer of the API server. -/
def deleteOrphanedResourcesOfKind (self : ClusterResources) (k : Kind) :
    DeletionTask F k → World api → Except Error (DeletionTask F k) × World api
  | .start, w =>
    if !self.applyStrategy.deleteOrphans then (.ok .done, w)
    else
      match self.listDeployedClusterResources k w with
      | (.ok deployed, w) => ((self.orphanedResources deployed).map .deleting, w)
      -- the operator is probably not in charge of resources that it may not list
      | (.error (.listResources (.api true)), w) => (.ok .skipped, w)
      | (.error e, w) => (.error (.listClusterResources e), w)
  | .deleting [], w => (.ok .done, w)
  | .deleting (resource :: orphaned), w =>
    match Client.delete w resource with
    | (.ok _, w) => (.ok (.deleting orphaned), w)
    | (.error e, w) => (.error (.deleteOrphanedResource e), w)
  | .done, w => (.ok .done, w)
  | .skipped, w => (.ok .skipped, w)

variable (crds : Bool)

/-- The joined tasks for all kinds. -/
abbrev Deletion (api : KubeApi F) (crds : Bool) : Type :=
  TryJoin (fun k : { k // k ∈ deletionKinds crds } => DeletionTask F k) (World api) Error

/-- Delete the orphaned resources of all kinds, with answers in the order of a schedule. -/
def deleteOrphanedResources (self : ClusterResources) (w : World api)
    (schedule : List { k // k ∈ deletionKinds crds }) : Deletion api crds :=
  TryJoin.run (fun k => self.deleteOrphanedResourcesOfKind k) ⟨w, fun _ => .start, none⟩ schedule

/-- Nothing is left to do. -/
def DeletionTask.IsFinished {k : Kind} (t : DeletionTask F k) : Prop := t = .done ∨ t = .skipped

/-- All tasks finished without an error. -/
def Deletion.IsOk {crds : Bool} (d : Deletion api crds) : Prop :=
  d.error = none ∧ ∀ k, (d.tasks k).IsFinished

end Model

/-! ### Orphans -/

/-- An object belongs to the cluster: it is in its namespace, has its labels, and is owned by
it. -/
structure Belongs (cluster : ClusterResources) (metadata : ObjectMeta) : Prop where
  inNamespace : metadata.namespace = some cluster.namespace
  labels : ∀ e ∈ cluster.expectedLabels, metadata.label? e.1 = some e.2
  owned : metadata.isOwnedBy cluster.clusterUid = true

section Orphan

variable {F : Type} {api : KubeApi F}

/-- A stored object that belongs to the cluster but was not added. -/
structure IsOrphan (cluster : ClusterResources) (w : World api) (k : Kind) (o : Object F k) :
    Prop where
  stored : w.Stored k o
  belongs : cluster.Belongs o.metadata
  notAdded : ∃ id, o.metadata.uid = some id ∧ id ∉ cluster.resourceIds

theorem matches_labelSelector_iff (self : ClusterResources) (metadata : ObjectMeta) :
    self.labelSelector.Matches metadata ↔
      ∀ e ∈ self.expectedLabels, metadata.label? e.1 = some e.2 := by
  simp [LabelSelector.Matches, labelSelector, LabelSelectorRequirement.Matches, expectedLabels,
    and_comm]

/-- The deployed resources are the stored objects that belong to the cluster. -/
theorem mem_listDeployedClusterResources (hapi : api.IsDocumented) {self : ClusterResources}
    {k : Kind} {w w' : World api} {deployed : List (Object F k)}
    (h : self.listDeployedClusterResources k w = (.ok deployed, w')) (o : Object F k) :
    o ∈ deployed ↔ w.Stored k o ∧ self.Belongs o.metadata := by
  unfold listDeployedClusterResources Client.listWithLabelSelector at h
  cases hlist : api.list w.server k self.namespace self.labelSelector with
  | mk answer s =>
    rw [hlist] at h
    cases answer with
    | error e => cases (Prod.mk.inj h).1
    | ok l =>
      have hdeployed : (l.filter fun r => r.metadata.isOwnedBy self.clusterUid) = deployed :=
        Except.ok.inj (Prod.mk.inj h).1
      rw [← hdeployed, List.mem_filter, hapi.mem_list hlist, matches_labelSelector_iff]
      constructor
      · rintro ⟨⟨hstored, hnamespace, hlabels⟩, howned⟩
        exact ⟨hstored, hnamespace, hlabels, howned⟩
      · rintro ⟨hstored, hnamespace, hlabels, howned⟩
        exact ⟨⟨hstored, hnamespace, hlabels⟩, howned⟩

/-- Listing only reads. -/
theorem readOnly_listDeployedClusterResources (hapi : api.IsDocumented)
    (self : ClusterResources) (k : Kind) (w : World api) :
    w.ReadOnly (self.listDeployedClusterResources k w).2 :=
  Client.readOnly_listWithLabelSelector hapi w k self.namespace self.labelSelector

/-- Each deployed resource has a uid, and it is orphaned iff the uid was not recorded. -/
theorem orphanedResources_eq_ok {self : ClusterResources} {k : Kind}
    {deployed orphaned : List (Object F k)} (h : self.orphanedResources deployed = .ok orphaned) :
    (∀ o ∈ orphaned, o ∈ deployed ∧ ∃ id, o.metadata.uid = some id ∧ id ∉ self.resourceIds) ∧
    ∀ o ∈ deployed, ∃ id, o.metadata.uid = some id ∧ (id ∉ self.resourceIds → o ∈ orphaned) := by
  induction deployed generalizing orphaned with
  | nil =>
    obtain rfl := Except.ok.inj h
    simp
  | cons resource resources ih =>
    rw [orphanedResources] at h
    -- a resource without uid ends the scan with an error
    cases huid : resource.metadata.uid with
    | none =>
      rw [huid] at h
      simp at h
    | some resourceId =>
      rw [huid] at h
      cases hrest : self.orphanedResources resources with
      | error e =>
        rw [hrest] at h
        cases h
      | ok rest =>
        rw [hrest] at h
        obtain ⟨hrest₁, hrest₂⟩ := ih hrest
        have horphaned : (if resourceId ∈ self.resourceIds then rest else resource :: rest) =
            orphaned := Except.ok.inj h
        rw [List.forall_mem_cons]
        by_cases hid : resourceId ∈ self.resourceIds
        · rw [if_pos hid] at horphaned
          subst horphaned
          refine ⟨?_, ⟨resourceId, huid, fun hne => absurd hid hne⟩, hrest₂⟩
          intro o ho
          obtain ⟨hmem, hnotAdded⟩ := hrest₁ o ho
          exact ⟨List.mem_cons_of_mem _ hmem, hnotAdded⟩
        · rw [if_neg hid] at horphaned
          subst horphaned
          refine ⟨?_, ⟨resourceId, huid, fun _ => List.mem_cons_self⟩, ?_⟩
          · intro o ho
            rcases List.mem_cons.mp ho with rfl | ho
            · exact ⟨List.mem_cons_self, resourceId, huid, hid⟩
            · obtain ⟨hmem, hnotAdded⟩ := hrest₁ o ho
              exact ⟨List.mem_cons_of_mem _ hmem, hnotAdded⟩
          · intro o ho
            obtain ⟨id, hid', hmem⟩ := hrest₂ o ho
            exact ⟨id, hid', fun hne => List.mem_cons_of_mem _ (hmem hne)⟩

/-! ### The invariant -/

/-- What is gone was orphaned, and the delete requests named orphans. -/
structure Safe (cluster : ClusterResources) (crds : Bool) (w₀ w : World api) : Prop where
  gone : ∀ k o, w₀.Stored k o → ¬ w.Stored k o → k ∈ deletionKinds crds ∧ cluster.IsOrphan w₀ k o
  deleted : ∀ k n name isOk, Request.delete k n name isOk ∈ w.requests →
    Request.delete k n name isOk ∈ w₀.requests ∨
      k ∈ deletionKinds crds ∧ ∃ o : Object F k, cluster.IsOrphan w₀ k o ∧
        o.metadata.namespace = some n ∧ o.metadata.name = some name

/-- The object was deleted with success. -/
def Deleted (w : World api) {k : Kind} (o : Object F k) : Prop :=
  Request.delete k o.getNamespace o.metadata.nameAny true ∈ w.requests

theorem deleted_of_delete_eq_ok {w w' : World api} {k : Kind} {o : Object F k} {u : Unit}
    (h : Client.delete w o = (.ok u, w')) : Deleted w' o := by
  unfold Client.delete at h
  cases hdelete : api.delete w.server k o.getNamespace o.metadata.nameAny with
  | mk answer s =>
    simp only [hdelete] at h
    cases answer with
    | error e => cases (Prod.mk.inj h).1
    | ok u' =>
      obtain ⟨-, rfl⟩ := Prod.mk.inj h
      exact List.mem_cons_self

/-- The objects of a kind that belong to the cluster were added, are still to be deleted, or
were deleted. -/
def Settled (self : ClusterResources) (w₀ w : World api) {k : Kind} (rest : List (Object F k)) :
    Prop :=
  ∀ o : Object F k, w₀.Stored k o → self.Belongs o.metadata →
    ∃ id, o.metadata.uid = some id ∧ (id ∉ self.resourceIds → o ∈ rest ∨ Deleted w o)

/-- What holds while a task has come so far. -/
def TaskInvariant (self : ClusterResources) (w₀ w : World api) (k : Kind) :
    DeletionTask F k → Prop
  | .start => ∀ o, w.Stored k o ↔ w₀.Stored k o
  | .deleting rest => (∀ o ∈ rest, self.IsOrphan w₀ k o) ∧ self.Settled w₀ w rest
  | .done => self.Settled w₀ w ([] : List (Object F k))
  | .skipped => True

/-- What a step for one kind does to the others: nothing. -/
structure OnlyKind (k : Kind) (w w' : World api) : Prop where
  stored : ∀ k' ≠ k, ∀ o, w'.Stored k' o ↔ w.Stored k' o
  requests : w.requests ⊆ w'.requests

theorem OnlyKind.refl (k : Kind) (w : World api) : OnlyKind k w w :=
  ⟨fun _ _ _ => Iff.rfl, fun _ => id⟩

theorem Settled.mono {self : ClusterResources} {w₀ w w' : World api} {k : Kind}
    {rest : List (Object F k)} (h : self.Settled w₀ w rest) (hsub : w.requests ⊆ w'.requests) :
    self.Settled w₀ w' rest := by
  intro o hstored hbelongs
  obtain ⟨id, huid, hsettled⟩ := h o hstored hbelongs
  exact ⟨id, huid, fun hne => (hsettled hne).imp_right fun hdeleted => hsub hdeleted⟩

/-- A step for another kind keeps the invariant of a task. -/
theorem TaskInvariant.of_onlyKind {self : ClusterResources} {w₀ w w' : World api} {k k' : Kind}
    {t : DeletionTask F k} (h : self.TaskInvariant w₀ w k t) (hne : k ≠ k')
    (honly : OnlyKind k' w w') : self.TaskInvariant w₀ w' k t := by
  cases t with
  | start => exact fun o => (honly.stored k hne o).trans (h o)
  | deleting rest => exact ⟨h.1, h.2.mono honly.requests⟩
  | done => exact h.mono honly.requests
  | skipped => trivial

/-- A list request keeps the world safe and concerns no kind. -/
theorem Safe.list (hapi : api.IsDocumented) {self : ClusterResources} {crds : Bool}
    {w₀ w : World api} (h : self.Safe crds w₀ w) (k : Kind) :
    self.Safe crds w₀ (self.listDeployedClusterResources k w).2 ∧
      OnlyKind k w (self.listDeployedClusterResources k w).2 := by
  have hread := readOnly_listDeployedClusterResources hapi self k w
  refine ⟨⟨?_, ?_⟩, ?_, ?_⟩
  · intro k' o h₀ hgone
    have hgone' : ¬ w.Stored k' o := fun hstored => hgone ((hread.stored k' o).mpr hstored)
    exact h.gone k' o h₀ hgone'
  · intro k' n name isOk hmem
    rcases List.mem_cons.mp hmem with heq | hmem
    · simp at heq
    · exact h.deleted k' n name isOk hmem
  · intro k' _ o
    exact hread.stored k' o
  · exact List.subset_cons_self _ _

/-- An orphan is named by the request to delete it. -/
theorem IsOrphan.key (hapi : api.IsDocumented) {self : ClusterResources} {w : World api}
    {k : Kind} {o : Object F k} (h : self.IsOrphan w k o) :
    o.metadata.namespace = some o.getNamespace ∧ o.metadata.name = some o.metadata.nameAny := by
  obtain ⟨name, hname⟩ := hapi.exists_name h.stored
  rw [Object.getNamespace, ObjectMeta.nameAny, h.belongs.inNamespace, hname]
  exact ⟨rfl, rfl⟩

/-- A delete request for an orphan keeps the world safe and concerns its kind only. -/
theorem Safe.delete (hapi : api.IsDocumented) {self : ClusterResources} {crds : Bool}
    {w₀ w : World api} (h : self.Safe crds w₀ w) {k : Kind} (hk : k ∈ deletionKinds crds)
    {resource : Object F k} (horphan : self.IsOrphan w₀ k resource) :
    self.Safe crds w₀ (Client.delete w resource).2 ∧
      OnlyKind k w (Client.delete w resource).2 := by
  obtain ⟨hnamespace, hname⟩ := horphan.key hapi
  refine ⟨⟨?_, ?_⟩, ?_, ?_⟩
  · intro k' o h₀ hgone
    by_cases hstored : w.Stored k' o
    · -- an object that goes with this request is the one that it names
      by_cases hkey : k' ≠ k ∨ o.metadata.namespace ≠ some resource.getNamespace ∨
          o.metadata.name ≠ some resource.metadata.nameAny
      · exact absurd ((hapi.stored_delete hkey).mpr hstored) hgone
      · rw [not_or, not_or, not_not, not_not, not_not] at hkey
        obtain ⟨rfl, hns, hn⟩ := hkey
        have hsame : o = resource := hapi.eq_of_name_eq h₀ horphan.stored
          (hns.trans hnamespace.symm) (hn.trans hname.symm)
        exact ⟨hk, hsame ▸ horphan⟩
    · exact h.gone k' o h₀ hstored
  · intro k' n name isOk hmem
    rcases List.mem_cons.mp hmem with heq | hmem
    · cases heq
      exact .inr ⟨hk, resource, horphan, hnamespace, hname⟩
    · exact h.deleted k' n name isOk hmem
  · intro k' hne o
    exact hapi.stored_delete (.inl hne)
  · exact List.subset_cons_self _ _

/-- The answer to a list request is settled: what belongs to the cluster is added or orphaned. -/
theorem settled_of_list (hapi : api.IsDocumented) {self : ClusterResources} {k : Kind}
    {w₀ w w' : World api} {deployed orphaned : List (Object F k)}
    (hstart : ∀ o, w.Stored k o ↔ w₀.Stored k o)
    (hlist : self.listDeployedClusterResources k w = (.ok deployed, w'))
    (horphaned : self.orphanedResources deployed = .ok orphaned) :
    (∀ o ∈ orphaned, self.IsOrphan w₀ k o) ∧ self.Settled w₀ w' orphaned := by
  have hmem := mem_listDeployedClusterResources hapi hlist
  obtain ⟨horphan, hsettled⟩ := orphanedResources_eq_ok horphaned
  refine ⟨fun o ho => ?_, fun o hstored hbelongs => ?_⟩
  · obtain ⟨hdeployed, hid⟩ := horphan o ho
    obtain ⟨hstored, hbelongs⟩ := (hmem o).mp hdeployed
    exact ⟨(hstart o).mp hstored, hbelongs, hid⟩
  · obtain ⟨id, huid, hin⟩ := hsettled o ((hmem o).mpr ⟨(hstart o).mpr hstored, hbelongs⟩)
    exact ⟨id, huid, fun hne => .inl (hin hne)⟩

/-- A step of a task keeps the world safe and concerns its kind only; if it succeeds, the task
goes on with its invariant. -/
structure StepSpec (cluster : ClusterResources) (crds : Bool) (w₀ w : World api) {k : Kind}
    (step : Except Error (DeletionTask F k) × World api) : Prop where
  safe : cluster.Safe crds w₀ step.2
  onlyKind : OnlyKind k w step.2
  task : ∀ t, step.1 = .ok t → cluster.TaskInvariant w₀ step.2 k t

/-- The first step lists the deployed resources. -/
theorem stepSpec_start (hapi : api.IsDocumented) {self : ClusterResources}
    (hstrategy : self.applyStrategy.deleteOrphans = true) {crds : Bool} {w₀ w : World api}
    (hsafe : self.Safe crds w₀ w) {k : Kind} (hstart : self.TaskInvariant w₀ w k .start) :
    self.StepSpec crds w₀ w (self.deleteOrphanedResourcesOfKind k .start w) := by
  obtain ⟨hsafe', honly⟩ := hsafe.list hapi k
  rw [deleteOrphanedResourcesOfKind, hstrategy]
  simp only [Bool.not_true, Bool.false_eq_true, if_false]
  split
  · rename_i deployed w' hdeployed
    rw [hdeployed] at hsafe' honly
    refine ⟨hsafe', honly, fun t ht => ?_⟩
    cases horphaned : self.orphanedResources deployed with
    | error e =>
      rw [horphaned] at ht
      cases ht
    | ok orphaned =>
      rw [horphaned] at ht
      obtain rfl := Except.ok.inj ht
      exact settled_of_list hapi hstart hdeployed horphaned
  · rename_i w' hforbidden
    rw [hforbidden] at hsafe' honly
    refine ⟨hsafe', honly, fun t ht => ?_⟩
    obtain rfl := Except.ok.inj ht
    trivial
  · rename_i e w' _ herror
    rw [herror] at hsafe' honly
    exact ⟨hsafe', honly, fun t ht => by cases ht⟩

/-- What is settled before an orphan is deleted is settled afterwards, without this orphan. -/
theorem Settled.delete {self : ClusterResources} {w₀ w w' : World api} {k : Kind}
    {resource : Object F k} {orphaned : List (Object F k)}
    (h : self.Settled w₀ w (resource :: orphaned)) (hsub : w.requests ⊆ w'.requests)
    (hdelete : Deleted w' resource) : self.Settled w₀ w' orphaned := by
  intro o hstored hbelongs
  obtain ⟨id, huid, hsettled⟩ := h o hstored hbelongs
  refine ⟨id, huid, fun hne => ?_⟩
  rcases hsettled hne with hmem | hdeleted
  · rcases List.mem_cons.mp hmem with rfl | hmem
    · exact .inr hdelete
    · exact .inl hmem
  · exact .inr (hsub hdeleted)

/-- The other steps delete one orphan each. -/
theorem stepSpec_deleting (hapi : api.IsDocumented) {self : ClusterResources} {crds : Bool}
    {w₀ w : World api} (hsafe : self.Safe crds w₀ w) {k : Kind} (hk : k ∈ deletionKinds crds)
    {resource : Object F k} {orphaned : List (Object F k)}
    (ht : self.TaskInvariant w₀ w k (.deleting (resource :: orphaned))) :
    self.StepSpec crds w₀ w
      (self.deleteOrphanedResourcesOfKind k (.deleting (resource :: orphaned)) w) := by
  obtain ⟨horphans, hsettled⟩ := ht
  obtain ⟨hsafe', honly⟩ := hsafe.delete hapi hk (horphans resource List.mem_cons_self)
  rw [deleteOrphanedResourcesOfKind]
  split
  · rename_i w' hok
    have hdelete : Deleted w' resource := deleted_of_delete_eq_ok hok
    rw [hok] at hsafe' honly
    refine ⟨hsafe', honly, fun t ht => ?_⟩
    obtain rfl := Except.ok.inj ht
    exact ⟨fun o ho => horphans o (List.mem_cons_of_mem _ ho),
      hsettled.delete honly.requests hdelete⟩
  · rename_i e w' herror
    rw [herror] at hsafe' honly
    exact ⟨hsafe', honly, fun t ht => by cases ht⟩

/-- **One step of a task** keeps the invariant. -/
theorem stepSpec_deleteOrphanedResourcesOfKind (hapi : api.IsDocumented) {self : ClusterResources}
    (hstrategy : self.applyStrategy.deleteOrphans = true) {crds : Bool} {w₀ w : World api}
    (hsafe : self.Safe crds w₀ w) {k : Kind} (hk : k ∈ deletionKinds crds)
    {t : DeletionTask F k} (ht : self.TaskInvariant w₀ w k t) :
    self.StepSpec crds w₀ w (self.deleteOrphanedResourcesOfKind k t w) := by
  -- a task that has nothing left to do leaves the world alone
  have hidle : ∀ t', self.TaskInvariant w₀ w k t' → self.StepSpec crds w₀ w (.ok t', w) := by
    intro t' ht'
    refine ⟨hsafe, .refl k w, fun t'' ht'' => ?_⟩
    obtain rfl := Except.ok.inj ht''
    exact ht'
  cases t with
  | start => exact stepSpec_start hapi hstrategy hsafe ht
  | deleting rest =>
    cases rest with
    | nil => exact hidle .done ht.2
    | cons resource orphaned => exact stepSpec_deleting hapi hsafe hk ht
  | done => exact hidle .done ht
  | skipped => exact hidle .skipped trivial

/-- The world is safe, and as long as there was no error, every task has its invariant. -/
structure Deletion.Invariant (cluster : ClusterResources) {crds : Bool} (w₀ : World api)
    (d : Deletion api crds) : Prop where
  safe : cluster.Safe crds w₀ d.world
  tasks : d.error = none → ∀ k : { k // k ∈ deletionKinds crds },
    cluster.TaskInvariant w₀ d.world k (d.tasks k)

/-- **The invariant holds at any moment of any schedule.** -/
theorem invariant_deleteOrphanedResources (hapi : api.IsDocumented) {self : ClusterResources}
    (hstrategy : self.applyStrategy.deleteOrphans = true) {crds : Bool} (w₀ : World api)
    (schedule : List { k // k ∈ deletionKinds crds }) :
    Deletion.Invariant self w₀ (self.deleteOrphanedResources crds w₀ schedule) := by
  refine TryJoin.run_induction (P := Deletion.Invariant self w₀) ?_ ?_ ?_ schedule
  · intro d k t w' ⟨hsafe, htasks⟩ hnone hresume
    have hstep := stepSpec_deleteOrphanedResourcesOfKind hapi hstrategy hsafe k.property
      (htasks hnone k)
    rw [hresume] at hstep
    obtain ⟨hsafe', honly, ht⟩ := hstep
    refine ⟨hsafe', fun _ k' => ?_⟩
    by_cases hk : k' = k
    · subst hk
      rw [TryJoin.tasks_advance_self]
      exact ht t rfl
    · rw [TryJoin.tasks_advance_of_ne d hk]
      exact (htasks hnone k').of_onlyKind (fun heq => hk (Subtype.ext heq)) honly
  · intro d k e w' ⟨hsafe, htasks⟩ hnone hresume
    have hstep := stepSpec_deleteOrphanedResourcesOfKind hapi hstrategy hsafe k.property
      (htasks hnone k)
    rw [hresume] at hstep
    exact ⟨hstep.safe, fun herror => by cases herror⟩
  · exact ⟨⟨fun k o h₀ hgone => absurd h₀ hgone, fun k n name isOk hmem => .inl hmem⟩,
      fun _ k o => Iff.rfl⟩

/-- How much is left to do. -/
def DeletionTask.rank {k : Kind} : DeletionTask F k → WithTop ℕ
  | .start => ⊤
  | .deleting orphanedResources => orphanedResources.length
  | .done | .skipped => 0

/-- **What is left of a finished deletion**: an object that belongs to the cluster was added or
deleted, unless its kind may not be listed. -/
theorem deleted_of_isOk (hapi : api.IsDocumented) {self : ClusterResources}
    (hstrategy : self.applyStrategy.deleteOrphans = true) {crds : Bool} {w₀ : World api}
    {schedule : List { k // k ∈ deletionKinds crds }}
    (hok : (self.deleteOrphanedResources crds w₀ schedule).IsOk)
    {k : { k // k ∈ deletionKinds crds }}
    (hlisted : (self.deleteOrphanedResources crds w₀ schedule).tasks k ≠ .skipped)
    {o : Object F k} (hstored : w₀.Stored k o) (hbelongs : self.Belongs o.metadata)
    (hadded : ∀ id ∈ self.resourceIds, o.metadata.uid ≠ some id) :
    Deleted (self.deleteOrphanedResources crds w₀ schedule).world o := by
  have hsettled := (invariant_deleteOrphanedResources hapi hstrategy w₀ schedule).tasks hok.1 k
  rw [(hok.2 k).resolve_right hlisted] at hsettled
  obtain ⟨id, huid, hcase⟩ := hsettled o hstored hbelongs
  rcases hcase fun hid => hadded id hid huid with hmem | hdeleted
  · exact absurd hmem List.not_mem_nil
  · exact hdeleted

end Orphan

/-! ### Adding resources and deleting orphans -/

/-- The resources of a cluster. -/
def simpleHdfs (strategy : ClusterResourceApplyStrategy) (overrides : ObjectOverrides) :
    ClusterResources where
  «namespace» := "default"
  appInstance := "simple"
  appName := "hdfs"
  clusterUid := "simple"
  operatorName := "hdfs.stackable.tech"
  controllerName := "hdfscluster"
  manager := "hdfs.stackable.tech_hdfscluster"
  resourceIds := ∅
  applyStrategy := strategy
  objectOverrides := overrides

/-- An object which belongs to this cluster. -/
def simpleObject (k : Kind) (name : String) (uid : Option String) (contents : k.Contents Unit) :
    Object Unit k where
  metadata :=
    { name := some name
      generateName := none
      «namespace» := some "default"
      labels := some (IterMap.collect (M := BTreeMap String) [
        (k8sAppInstanceKey, "simple"),
        (k8sAppManagedByKey, "hdfs.stackable.tech_hdfscluster"),
        (k8sAppNameKey, "hdfs")])
      ownerReferences := some [⟨"simple"⟩]
      uid := uid }
  contents := contents
  rest := ()

/-- A server that stores the one object `"old"`. -/
def simpleWorld : World (Store.api Unit) where
  server := Store.empty.put ("default", "old") (simpleObject .configMap "old" (some "0") ())
    ⟨rfl, rfl⟩
  requests := []

/-- Resume all tasks, in the order of the kinds, for some rounds. -/
def rounds (n : ℕ) : List { k // k ∈ deletionKinds true } :=
  (List.replicate n (deletionKinds true).attach).flatten

end ClusterResources

end StackableOperator
