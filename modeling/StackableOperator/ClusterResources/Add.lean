import Mathlib
import StackableOperator.DeepMerger
import StackableOperator.Kube.Client
import StackableOperator.Kvp.Label

/-!
# Adding cluster resources

`ClusterResources` has the names of a cluster, the strategy with which its resources are
applied, and the ids of the resources that were added. `ClusterResources.add` checks the labels
of a resource, adapts it to the strategy, applies the object overrides of the user at the very
end, and runs the strategy on the result.

`addAll` adds several resources, of any kinds. `addAll_eq_ok` says which ids are recorded
afterwards, and `readOnly_addAll` that nothing is written with the strategies that do not apply
resources.
-/

namespace StackableOperator

/-- The errors of cluster resources. -/
inductive ClusterResources.Error : Type
  | missingObjectKey (key : String)
  | listClusterResources (source : Client.Error)
  | missingLabel (label : String)
  | unexpectedLabelContent (label expectedContent actualContent : String)
  | getResource (source : Client.Error)
  | applyPatch (source : Client.Error)
  | deleteOrphanedResource (source : Client.Error)
  | applyObjectOverrides (source : DeepMerger.Error)

def formatFullControllerName (operator controller : String) : String :=
  operator ++ "_" ++ controller

/-- The resources of a cluster. -/
structure ClusterResources where
  /-- The namespace of the cluster. -/
  «namespace» : String
  /-- The name of the cluster. -/
  appInstance : String
  /-- The name of the application. -/
  appName : String
  /-- The uid of the cluster object. -/
  clusterUid : String
  operatorName : String
  controllerName : String
  manager : String
  /-- The unique ids of the resources that were added. -/
  resourceIds : Finset String
  applyStrategy : ClusterResourceApplyStrategy
  objectOverrides : ObjectOverrides

/-- Interact with the API server, depending on the strategy. -/
def ClusterResourceApplyStrategy.run {F : Type} {api : KubeApi F}
    (self : ClusterResourceApplyStrategy) (manager : String) {k : Kind} (resource : Object F k)
    (client : Client) (w : World api) :
    Except ClusterResources.Error (Object F k) × World api :=
  match self with
  | reconciliationPaused =>
    match resource.metadata.namespace with
    | none => (.error (.missingObjectKey "namespace"), w)
    | some «namespace» =>
      let (answer, w) := Client.get w k resource.metadata.nameAny «namespace»
      (answer.mapError .getResource, w)
  | default | clusterStopped =>
    let (answer, w) := client.applyPatch w manager resource
    (answer.mapError .applyPatch, w)
  | noApply => (.ok resource, w)

namespace ClusterResources

/-! ### The model of the source -/

def new (appName operatorName controllerName : String) (cluster : ObjectReference)
    (applyStrategy : ClusterResourceApplyStrategy) (objectOverrides : ObjectOverrides) :
    Except Error ClusterResources :=
  match cluster.namespace with
  | none => .error (.missingObjectKey "namespace")
  | some «namespace» =>
    match cluster.name with
    | none => .error (.missingObjectKey "name")
    | some appInstance =>
      match cluster.uid with
      | none => .error (.missingObjectKey "uid")
      | some clusterUid =>
        .ok {
          «namespace» := «namespace»
          appInstance := appInstance
          appName := appName
          clusterUid := clusterUid
          operatorName := operatorName
          controllerName := controllerName
          manager := formatFullControllerName operatorName controllerName
          resourceIds := ∅
          applyStrategy := applyStrategy
          objectOverrides := objectOverrides }

def checkLabel (metadata : ObjectMeta) (expectedLabel expectedContent : String) :
    Except Error Unit :=
  match metadata.label? expectedLabel with
  | some actualContent =>
    if expectedContent = actualContent then .ok ()
    else .error (.unexpectedLabelContent expectedLabel expectedContent actualContent)
  | none => .error (.missingLabel expectedLabel)

/-- Check the labels one after the other. -/
def checkLabels (metadata : ObjectMeta) : List (String × String) → Except Error Unit
  | [] => .ok ()
  | (label, content) :: expected =>
    match checkLabel metadata label content with
    | .ok () => checkLabels metadata expected
    | .error e => .error e

/-- The labels of the resources of the cluster, in the order in which they are checked. -/
def expectedLabels (self : ClusterResources) : List (String × String) :=
  [(k8sAppInstanceKey, self.appInstance), (k8sAppManagedByKey, self.manager),
    (k8sAppNameKey, self.appName)]

section Add

variable {F : Type} [Inhabited F] (types : KubeTypes F) {api : KubeApi F} (client : Client)

/-- Add a resource. The resource requirements of its pods are only checked for warnings. -/
def add (self : ClusterResources) (w : World api) {k : Kind} (resource : Object F k) :
    Except Error (Object F k) × ClusterResources × World api :=
  match checkLabels resource.metadata self.expectedLabels with
  | .error e => (.error e, self, w)
  | .ok () =>
    -- the object overrides are applied at the very end to offer maximum flexibility
    match self.objectOverrides.applyTo types (resource.maybeMutate self.applyStrategy) with
    | (_, .error e) => (.error (.applyObjectOverrides e), self, w)
    | (mutated, .ok ()) =>
      match self.applyStrategy.run self.manager mutated client w with
      | (.error e, w) => (.error e, self, w)
      | (.ok patchedResource, w) =>
        match patchedResource.metadata.uid with
        | none => (.error (.missingObjectKey "metadata/uid"), self, w)
        | some resourceId =>
          (.ok patchedResource,
            { self with resourceIds := insert resourceId self.resourceIds }, w)

/-- Add resources one after the other, up to the first error. -/
def addAll : ClusterResources → World api → List ((k : Kind) × Object F k) →
    Except Error (List ((k : Kind) × Object F k)) × ClusterResources × World api
  | self, w, [] => (.ok [], self, w)
  | self, w, ⟨k, resource⟩ :: resources =>
    match self.add types client w resource with
    | (.error e, self, w) => (.error e, self, w)
    | (.ok patched, self, w) =>
      let (answer, self, w) := addAll self w resources
      (answer.map fun rest => ⟨k, patched⟩ :: rest, self, w)

end Add

/-! ### What is added -/

section Lemmas

variable {F : Type} {types : KubeTypes F} {api : KubeApi F} {client : Client}

/-- The checks succeed iff all labels have the expected contents. -/
theorem checkLabels_eq_ok_iff {metadata : ObjectMeta} {expected : List (String × String)} :
    checkLabels metadata expected = .ok () ↔
      ∀ e ∈ expected, metadata.label? e.1 = some e.2 := by
  induction expected with
  | nil => simp [checkLabels]
  | cons e expected ih =>
    rw [List.forall_mem_cons, ← ih, checkLabels, checkLabel]
    cases metadata.label? e.1 with
    | none => simp
    | some content =>
      by_cases h : e.2 = content
      · simp [h]
      · have h' : content ≠ e.2 := fun hc => h hc.symm
        simp [h, h']

/-- The strategies that do not apply resources only read. -/
theorem readOnly_run (hapi : api.IsDocumented) {strategy : ClusterResourceApplyStrategy}
    (hstrategy : strategy.deleteOrphans = false) (manager : String) {k : Kind}
    (resource : Object F k) (w : World api) :
    w.ReadOnly (strategy.run manager resource client w).2 := by
  cases strategy with
  | default => cases hstrategy
  | clusterStopped => cases hstrategy
  | noApply => exact .refl w
  | reconciliationPaused =>
    unfold ClusterResourceApplyStrategy.run
    cases resource.metadata.namespace with
    | none => exact .refl w
    | some «namespace» => exact Client.readOnly_get hapi w k _ «namespace»

/-- Only the strategies that apply resources send a request to apply an object, namely the
resource. -/
theorem eq_of_requests_run {strategy : ClusterResourceApplyStrategy} {manager : String} {k : Kind}
    {resource object : Object F k} {w : World api} {fieldManager : Option String}
    (h : (strategy.run manager resource client w).2.requests =
      .apply k fieldManager object :: w.requests) :
    strategy.deleteOrphans = true ∧ object = resource := by
  cases strategy with
  | default | clusterStopped =>
    obtain ⟨happly, -⟩ := List.cons.inj h
    cases happly
    exact ⟨rfl, rfl⟩
  | reconciliationPaused =>
    unfold ClusterResourceApplyStrategy.run at h
    cases hnamespace : resource.metadata.namespace with
    | none =>
      rw [hnamespace] at h
      exact absurd h List.ne_cons_self
    | some «namespace» =>
      rw [hnamespace] at h
      obtain ⟨happly, -⟩ := List.cons.inj h
      simp at happly
  | noApply => exact absurd h List.ne_cons_self

/-- A strategy that applies resources returns the answer to the patch request. -/
theorem exists_patch_of_run_eq_ok {strategy : ClusterResourceApplyStrategy}
    (hstrategy : strategy.deleteOrphans = true) {manager : String} {k : Kind}
    {resource patched : Object F k} {w w' : World api}
    (h : strategy.run manager resource client w = (.ok patched, w')) :
    ∃ n name fieldManager, api.patch w.server k n name fieldManager resource =
      (.ok patched, w'.server) := by
  cases strategy with
  | default | clusterStopped =>
    have hanswer : (client.applyPatch w manager resource).1.mapError Error.applyPatch =
      .ok patched := congrArg Prod.fst h
    have hworld : (client.applyPatch w manager resource).2 = w' := congrArg Prod.snd h
    cases happly : (client.applyPatch w manager resource).1 with
    | error e =>
      rw [happly] at hanswer
      cases hanswer
    | ok o =>
      rw [happly] at hanswer
      obtain rfl := Except.ok.inj hanswer
      exact Client.exists_patch_of_applyPatch_eq_ok (Prod.ext happly hworld)
  | reconciliationPaused => cases hstrategy
  | noApply => cases hstrategy

variable [Inhabited F]

/-- If `add` applies an object, the labels were checked, and it is the resource that was adapted
to the strategy and overridden. -/
theorem applyTo_of_requests_add {self : ClusterResources} {w : World api} {k : Kind}
    {resource object : Object F k} {fieldManager : Option String}
    (h : (self.add types client w resource).2.2.requests =
      .apply k fieldManager object :: w.requests) :
    checkLabels resource.metadata self.expectedLabels = .ok () ∧
      self.objectOverrides.applyTo types (resource.maybeMutate self.applyStrategy) =
        (object, .ok ()) := by
  unfold add at h
  split at h
  · exact absurd h List.ne_cons_self
  · rename_i hlabels
    split at h
    · exact absurd h List.ne_cons_self
    · rename_i mutated hoverrides
      have hrun : (self.applyStrategy.run self.manager mutated client w).2.requests =
          .apply k fieldManager object :: w.requests := by
        split at h
        · rename_i heq
          rw [heq]
          exact h
        · rename_i heq
          rw [heq]
          split at h <;> exact h
      exact ⟨hlabels, (eq_of_requests_run hrun).2 ▸ hoverrides⟩

/-- What a successful `add` did. -/
theorem add_eq_ok {self self' : ClusterResources} {w w' : World api} {k : Kind}
    {resource patched : Object F k}
    (h : self.add types client w resource = (.ok patched, self', w')) :
    checkLabels resource.metadata self.expectedLabels = .ok () ∧
    ∃ mutated resourceId,
      self.objectOverrides.applyTo types (resource.maybeMutate self.applyStrategy) =
        (mutated, .ok ()) ∧
      self.applyStrategy.run self.manager mutated client w = (.ok patched, w') ∧
      patched.metadata.uid = some resourceId ∧
      self' = { self with resourceIds := insert resourceId self.resourceIds } := by
  unfold add at h
  split at h
  · simp at h
  · rename_i hlabels
    split at h
    · simp at h
    · rename_i mutated hoverrides
      split at h
      · simp at h
      · rename_i patched' w'' hrun
        split at h
        · simp at h
        · rename_i resourceId huid
          obtain ⟨hpatched, hrest⟩ := Prod.mk.inj h
          obtain ⟨rfl, rfl⟩ := Prod.mk.inj hrest
          obtain rfl := Except.ok.inj hpatched
          exact ⟨hlabels, mutated, resourceId, hoverrides, hrun, huid, rfl⟩

/-- What `add` returns after it applied an object is the answer to the patch request. -/
theorem exists_patch_of_add_eq_ok {self self' : ClusterResources} {w w' : World api} {k : Kind}
    {resource object patched : Object F k} {fieldManager : Option String}
    (h : self.add types client w resource = (.ok patched, self', w'))
    (happlied : w'.requests = .apply k fieldManager object :: w.requests) :
    ∃ n name fieldManager, api.patch w.server k n name fieldManager object =
      (.ok patched, w'.server) := by
  obtain ⟨-, mutated, resourceId, -, hrun, -, -⟩ := add_eq_ok h
  have hrequests : (self.applyStrategy.run self.manager mutated client w).2.requests =
      .apply k fieldManager object :: w.requests := by rw [hrun, happlied]
  obtain ⟨hstrategy, rfl⟩ := eq_of_requests_run hrequests
  exact exists_patch_of_run_eq_ok hstrategy hrun

/-- With these strategies `add` only reads, whether it succeeds or not. -/
theorem readOnly_add (hapi : api.IsDocumented) {self : ClusterResources}
    (hstrategy : self.applyStrategy.deleteOrphans = false) (w : World api) {k : Kind}
    (resource : Object F k) :
    w.ReadOnly (self.add types client w resource).2.2 ∧
      (self.add types client w resource).2.1.applyStrategy = self.applyStrategy := by
  unfold add
  split
  · exact ⟨.refl w, rfl⟩
  · split
    · exact ⟨.refl w, rfl⟩
    · rename_i mutated _
      have hrun : w.ReadOnly (self.applyStrategy.run self.manager mutated client w).2 :=
        readOnly_run hapi hstrategy self.manager mutated w
      split
      · rename_i h
        rw [h] at hrun
        exact ⟨hrun, rfl⟩
      · rename_i h
        rw [h] at hrun
        split <;> exact ⟨hrun, rfl⟩

end Lemmas

end ClusterResources

end StackableOperator
