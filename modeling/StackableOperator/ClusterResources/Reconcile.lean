import Mathlib
import StackableOperator.ClusterResources.Overrides
import StackableOperator.Machines.Interleaving

/-!
# Reconciles that overlap

A controller reconciles its clusters again and again, several of them at once. Each reconcile adds
the resources of a cluster one after the other and then deletes its orphaned resources; it may
end early, with an error or because the operator is stopped. All of them send their requests to one
API server.

`isStored_of_reach` says what the owner of an object may rely on: an object stays where it is and
keeps its uid, and no request asks to delete it, no matter how reconciles overlap, as long as each
reconcile of its cluster adds it and other clusters do not apply it. `reach_deleteOrphanedResources`
says that the runs of one reconcile, as far as it gets, are among the interleavings.
-/

namespace StackableOperator

/-! ### Server-side apply -/

/-- The documented behaviour of server-side apply in the place of an object: a request concerns the
named object only; it keeps the uid of a stored object, which is left as it is or gets the labels
that were applied. -/
structure KubeApi.AppliesInPlace {F : Type} (api : KubeApi F) : Prop where
  stored_patch_of_ne : ∀ {s k n name manager object k' o},
    (k' ≠ k ∨ o.metadata.namespace ≠ some n ∨ o.metadata.name ≠ some name) →
      (api.stored (api.patch s k n name manager object).2 k' o ↔ api.stored s k' o)
  key_patch : ∀ {s k n name manager object o s'},
    api.patch s k n name manager object = (.ok o, s') →
      o.metadata.namespace = some n ∧ o.metadata.name = some name
  exists_stored_patch : ∀ {s k n name manager object old}, api.stored s k old →
    old.metadata.namespace = some n → old.metadata.name = some name →
      ∃ o, api.stored (api.patch s k n name manager object).2 k o ∧
        o.metadata.namespace = some n ∧ o.metadata.name = some name ∧
        (∀ uid, old.metadata.uid = some uid → o.metadata.uid = some uid) ∧
        (o = old ∨ ∀ key v, object.metadata.label? key = some v → o.metadata.label? key = some v)

namespace Store

variable {F : Type}

theorem objects_put_of_ne (s : Store F) {k k' : Kind} (h : k' ≠ k) (key : String × String)
    (o : Object F k) (ho) : (s.put key o ho).objects k' = s.objects k' :=
  Function.update_of_ne h _ s.objects

/-- Storing an object leaves those under other keys alone. -/
theorem stored_put_of_ne {s : Store F} {k k' : Kind} {key : String × String} {o : Object F k} (ho)
    {o' : Object F k'}
    (h : k' ≠ k ∨ o'.metadata.namespace ≠ some key.1 ∨ o'.metadata.name ≠ some key.2) :
    (api F).stored (s.put key o ho) k' o' ↔ (api F).stored s k' o' := by
  refine exists_congr fun key' => ?_
  by_cases hk : k' = k
  · subst hk
    rw [objects_put_self]
    by_cases hkey : key' = key
    · subst hkey
      rw [AList.lookup_insert]
      refine ⟨fun hnew => ?_, fun hold => ?_⟩
      · obtain rfl := Option.some.inj hnew
        simp [ho] at h
      · obtain ⟨hnamespace, hname⟩ := s.key_eq hold
        simp [hnamespace, hname] at h
    · rw [AList.lookup_insert_ne hkey]
  · rw [objects_put_of_ne s hk]

/-- The API server in memory applies objects in their places. -/
theorem appliesInPlace_api : (api F).AppliesInPlace where
  stored_patch_of_ne := by
    intro s k n name manager object k' o h
    simp only [api]
    split
    · rename_i hkey
      exact stored_put_of_ne hkey h
    · exact Iff.rfl
  key_patch := by
    intro s k n name manager object o s' h
    simp only [api] at h
    split at h
    · rename_i hkey
      obtain rfl := Except.ok.inj (Prod.mk.inj h).1
      exact hkey
    · cases (Prod.mk.inj h).1
  exists_stored_patch := by
    rintro s k n name manager object old ⟨key, hold⟩ hnamespace hname
    simp only [api]
    split
    · rename_i hkey
      obtain ⟨hn, hname'⟩ := s.key_eq hold
      obtain rfl : key = (n, name) := Prod.ext (Option.some.inj (hn.symm.trans hnamespace))
        (Option.some.inj (hname'.symm.trans hname))
      refine ⟨_, stored_put s _ _ hkey, hkey.1, hkey.2, fun uid huid => ?_, .inr fun _ _ => id⟩
      simp [hold, huid]
    · exact ⟨old, ⟨key, hold⟩, hnamespace, hname, fun _ => id, .inl rfl⟩

end Store

/-! ### Objects over time -/

/-- Where an object is stored, its uid, and the cluster that it belongs to. -/
structure Resident where
  kind : Kind
  «namespace» : String
  name : String
  uid : String
  cluster : ClusterResources

namespace Resident

open ClusterResources

variable {F : Type} {api : KubeApi F}

/-- An object with the uid and the labels of its cluster is stored in this place. -/
def IsStored (self : Resident) (w : World api) : Prop :=
  ∃ o : Object F self.kind, w.Stored self.kind o ∧
    o.metadata.namespace = some self.namespace ∧ o.metadata.name = some self.name ∧
    o.metadata.uid = some self.uid ∧
    ∀ e ∈ self.cluster.expectedLabels, o.metadata.label? e.1 = some e.2

/-- A request that is made with this object concerns the place. -/
structure IsTarget (resident : Resident) {k : Kind} (o : Object F k) : Prop where
  kind : k = resident.kind
  inNamespace : o.getNamespace = resident.namespace
  nameAny : o.metadata.nameAny = resident.name

/-- Between two moments the object stayed, and no request asked to delete it. -/
structure Unharmed (resident : Resident) (w w' : World api) : Prop where
  stored : resident.IsStored w'
  requests : ∀ isOk,
    Request.delete resident.kind resident.namespace resident.name isOk ∈ w'.requests →
      Request.delete resident.kind resident.namespace resident.name isOk ∈ w.requests

variable {self : Resident} {w w' w'' : World api}

theorem Unharmed.refl (h : self.IsStored w) : self.Unharmed w w := ⟨h, fun _ => id⟩

theorem Unharmed.trans (h : self.Unharmed w w') (h' : self.Unharmed w' w'') :
    self.Unharmed w w'' :=
  ⟨h'.stored, fun isOk hmem => h.requests isOk (h'.requests isOk hmem)⟩

/-- Requests that only read do no harm. -/
theorem Unharmed.of_readOnly (h : self.IsStored w) (hread : w.ReadOnly w') :
    self.Unharmed w w' := by
  obtain ⟨o, hstored, ho⟩ := h
  refine ⟨⟨o, (hread.stored self.kind o).mpr hstored, ho⟩, fun isOk hmem => ?_⟩
  have hwrite : Request.delete self.kind self.namespace self.name isOk ∈
      w'.requests.filter Request.isWrite := List.mem_filter.mpr ⟨hmem, rfl⟩
  rw [hread.requests] at hwrite
  exact (List.mem_filter.mp hwrite).1

/-- A request for another place leaves the object alone. -/
theorem place_ne {k : Kind} {object : Object F k} (h : ¬ self.IsTarget object)
    {o : Object F self.kind} (hnamespace : o.metadata.namespace = some self.namespace)
    (hname : o.metadata.name = some self.name) :
    self.kind ≠ k ∨ o.metadata.namespace ≠ some object.getNamespace ∨
      o.metadata.name ≠ some object.metadata.nameAny := by
  by_contra hall
  simp only [not_or, not_not] at hall
  obtain ⟨hkind, hns, hn⟩ := hall
  rw [hnamespace] at hns
  rw [hname] at hn
  exact h ⟨hkind.symm, (Option.some.inj hns).symm, (Option.some.inj hn).symm⟩

/-- Applying an object does no harm if it has the labels in this place. -/
theorem Unharmed.applyPatch (hplace : api.AppliesInPlace) (h : self.IsStored w)
    (client : Client) (scope : String) {k : Kind} {object : Object F k}
    (hlabels : self.IsTarget object →
      ∀ e ∈ self.cluster.expectedLabels, object.metadata.label? e.1 = some e.2) :
    self.Unharmed w (client.applyPatch w scope object).2 := by
  obtain ⟨o, hstored, hnamespace, hname, huid, hold⟩ := h
  refine ⟨?_, fun isOk hmem => ?_⟩
  · by_cases htarget : self.IsTarget object
    · have hnew := hlabels htarget
      obtain ⟨hkind, hns, hn⟩ := htarget
      subst hkind
      obtain ⟨o', hstored', hnamespace', hname', huid', hcase⟩ :=
        @KubeApi.AppliesInPlace.exists_stored_patch F api hplace w.server self.kind self.namespace
          self.name (client.applyPatchParams scope) object o hstored hnamespace hname
      refine ⟨o', ?_, hnamespace', hname', huid' _ huid, fun e he => ?_⟩
      · rw [← hns, ← hn] at hstored'
        exact hstored'
      · rcases hcase with rfl | happlied
        · exact hold e he
        · exact happlied _ _ (hnew e he)
    · exact ⟨o, (hplace.stored_patch_of_ne (place_ne htarget hnamespace hname)).mpr hstored,
        hnamespace, hname, huid, hold⟩
  · rcases List.mem_cons.mp hmem with heq | hmem
    · simp at heq
    · exact hmem

/-- Deleting another object does no harm. -/
theorem Unharmed.delete (hapi : api.IsDocumented) (h : self.IsStored w) {k : Kind}
    {object : Object F k} (htarget : ¬ self.IsTarget object) :
    self.Unharmed w (Client.delete w object).2 := by
  obtain ⟨o, hstored, hnamespace, hname, huid, hold⟩ := h
  refine ⟨⟨o, (hapi.stored_delete (place_ne htarget hnamespace hname)).mpr hstored, hnamespace,
    hname, huid, hold⟩, fun isOk hmem => ?_⟩
  rcases List.mem_cons.mp hmem with heq | hmem
  · injection heq with hkind hns hn
    exact absurd ⟨hkind.symm, hns.symm, hn.symm⟩ htarget
  · exact hmem

end Resident

/-! ### Adding -/

section Steps

variable {F : Type} {types : KubeTypes F} {api : KubeApi F} {client : Client}

/-- A strategy that applies resources sends a patch request. -/
theorem ClusterResourceApplyStrategy.run_of_deleteOrphans
    {strategy : ClusterResourceApplyStrategy} (h : strategy.deleteOrphans = true)
    (manager : String) {k : Kind} (resource : Object F k) (w : World api) :
    strategy.run manager resource client w =
      ((client.applyPatch w manager resource).1.mapError .applyPatch,
        (client.applyPatch w manager resource).2) := by
  cases strategy with
  | default | clusterStopped => rfl
  | reconciliationPaused | noApply => cases h

/-- What such a strategy returns is the answer to the patch request. -/
theorem ClusterResourceApplyStrategy.patch_of_run_eq_ok
    {strategy : ClusterResourceApplyStrategy} (h : strategy.deleteOrphans = true)
    {manager : String} {k : Kind} {resource patched : Object F k} {w w' : World api}
    (hrun : strategy.run manager resource client w = (.ok patched, w')) :
    api.patch w.server k resource.getNamespace resource.metadata.nameAny
        (client.applyPatchParams manager) resource = (.ok patched, w'.server) ∧
      w'.requests = .apply k (client.applyPatchParams manager) resource :: w.requests := by
  rw [run_of_deleteOrphans h] at hrun
  obtain ⟨hanswer, hworld⟩ := Prod.mk.inj hrun
  cases happly : (client.applyPatch w manager resource).1 with
  | error e =>
    rw [happly] at hanswer
    cases hanswer
  | ok answer =>
    rw [happly] at hanswer
    obtain rfl := Except.ok.inj hanswer
    exact ⟨Client.patch_of_applyPatch_eq_ok (Prod.ext happly hworld), hworld ▸ rfl⟩

/-- Adding a resource runs the strategy on the overridden resource, unless it fails before. -/
theorem ClusterResources.world_add [Inhabited F] (self : ClusterResources) (w : World api)
    {k : Kind} (resource : Object F k) :
    (self.add types client w resource).2.2 = w ∨ ∃ mutated,
      self.objectOverrides.applyTo types (resource.maybeMutate self.applyStrategy) =
        (mutated, .ok ()) ∧
      (self.add types client w resource).2.2 =
        (self.applyStrategy.run self.manager mutated client w).2 := by
  unfold add
  split
  · exact .inl rfl
  · split
    · exact .inl rfl
    · rename_i mutated hoverrides
      refine .inr ⟨mutated, hoverrides, ?_⟩
      split
      · rename_i hrun
        rw [hrun]
      · rename_i hrun
        rw [hrun]
        split <;> rfl

namespace Resident

open ClusterResources

variable [Inhabited F] {self : Resident} {w w' : World api}

/-- The overridden resource is applied in the place of the resource. -/
theorem isTarget_applyTo_iff (htypes : types.IsDocumented) {overrides : ObjectOverrides}
    {strategy : ClusterResourceApplyStrategy} {k : Kind} {resource mutated : Object F k}
    (h : overrides.applyTo types (resource.maybeMutate strategy) = (mutated, .ok ())) :
    self.IsTarget mutated ↔ self.IsTarget resource := by
  have hnamespace : mutated.getNamespace = resource.getNamespace := by
    rw [Object.getNamespace, ObjectOverrides.namespace_applyTo htypes h,
      Object.metadata_maybeMutate, Object.getNamespace]
  have hname : mutated.metadata.nameAny = resource.metadata.nameAny := by
    rw [ObjectOverrides.nameAny_applyTo htypes h, Object.metadata_maybeMutate]
  constructor
  · rintro ⟨hk, hns, hn⟩
    exact ⟨hk, hnamespace ▸ hns, hname ▸ hn⟩
  · rintro ⟨hk, hns, hn⟩
    exact ⟨hk, hnamespace ▸ hns, hname ▸ hn⟩

/-- Adding a resource does no harm if it is for another place, or is added for the same cluster
with overrides that keep its labels. -/
theorem Unharmed.add (hapi : api.IsDocumented) (hplace : api.AppliesInPlace)
    (htypes : types.IsDocumented) (h : self.IsStored w) {cluster : ClusterResources} {k : Kind}
    {resource : Object F k}
    (hkeeps : self.IsTarget resource → cluster.applyStrategy.deleteOrphans = true →
      cluster.expectedLabels = self.cluster.expectedLabels ∧ cluster.KeepsLabels types resource) :
    self.Unharmed w (cluster.add types client w resource).2.2 := by
  by_cases hstrategy : cluster.applyStrategy.deleteOrphans = true
  · obtain hsame | ⟨mutated, hoverrides, hworld⟩ := world_add cluster w resource
    · rw [hsame]
      exact .refl h
    · rw [ClusterResourceApplyStrategy.run_of_deleteOrphans hstrategy] at hworld
      rw [hworld]
      refine .applyPatch hplace h client cluster.manager fun htarget => ?_
      obtain ⟨hexpected, hkept⟩ :=
        hkeeps ((isTarget_applyTo_iff htypes hoverrides).mp htarget) hstrategy
      rw [← hexpected]
      have happlied : (cluster.add types client w resource).2.2.requests =
          .apply k (client.applyPatchParams cluster.manager) mutated :: w.requests := by
        rw [hworld]
        rfl
      exact (ClusterResources.labels_of_requests_add_iff htypes happlied).mpr hkept
  · exact .of_readOnly h
      (ClusterResources.readOnly_add hapi (Bool.eq_false_iff.mpr hstrategy) w resource).1

/-- The uid of the object is recorded when it is added. -/
theorem uid_mem_of_add (hapi : api.IsDocumented) (hplace : api.AppliesInPlace)
    (htypes : types.IsDocumented) (h : self.IsStored w) {cluster cluster' : ClusterResources}
    (hstrategy : cluster.applyStrategy.deleteOrphans = true) {k : Kind}
    {resource patched : Object F k} (htarget : self.IsTarget resource)
    (hadd : cluster.add types client w resource = (.ok patched, cluster', w')) :
    self.uid ∈ cluster'.resourceIds := by
  obtain ⟨-, mutated, resourceId, hoverrides, hrun, huid, rfl⟩ := ClusterResources.add_eq_ok hadd
  obtain ⟨hkind, hns, hn⟩ := (isTarget_applyTo_iff htypes hoverrides).mpr htarget
  subst hkind
  obtain ⟨hpatch, -⟩ := ClusterResourceApplyStrategy.patch_of_run_eq_ok hstrategy hrun
  obtain ⟨o, hstored, hnamespace, hname, hold, -⟩ := h
  obtain ⟨o', hstored', hnamespace', hname', huid', -⟩ :=
    @KubeApi.AppliesInPlace.exists_stored_patch F api hplace w.server self.kind self.namespace
      self.name (client.applyPatchParams cluster.manager) mutated o hstored hnamespace hname
  rw [← hns, ← hn, hpatch] at hstored'
  obtain ⟨hnamespace'', hname''⟩ := hplace.key_patch hpatch
  -- the answer is the object that is stored in this place
  have hsame : o' = patched := hapi.eq_of_name_eq hstored' (hapi.stored_patch hpatch).1
    (hnamespace'.trans (hns ▸ hnamespace'').symm) (hname'.trans (hn ▸ hname'').symm)
  have hid : resourceId = self.uid :=
    Option.some.inj (huid.symm.trans (hsame ▸ huid' _ hold))
  exact hid ▸ Finset.mem_insert_self _ _

/-! ### Deleting -/

omit [Inhabited F]

/-- Another cluster, which has other labels or is in another namespace. -/
def IsForeignTo (self : Resident) (cluster : ClusterResources) : Prop :=
  cluster.namespace ≠ self.namespace ∨ cluster.expectedLabels ≠ self.cluster.expectedLabels

/-- Why a deletion does not take the object for an orphan. -/
inductive SparedBy (resident : Resident) (cluster : ClusterResources) : Prop
  /-- Orphans are not deleted. -/
  | passive : cluster.applyStrategy.deleteOrphans = false → SparedBy resident cluster
  | foreign : resident.IsForeignTo cluster → SparedBy resident cluster
  | added : resident.uid ∈ cluster.resourceIds → SparedBy resident cluster

/-- An object has the labels of one cluster only. -/
theorem expectedLabels_eq {cluster cluster' : ClusterResources} {metadata : ObjectMeta}
    (h : ∀ e ∈ cluster.expectedLabels, metadata.label? e.1 = some e.2)
    (h' : ∀ e ∈ cluster'.expectedLabels, metadata.label? e.1 = some e.2) :
    cluster.expectedLabels = cluster'.expectedLabels := by
  simp only [ClusterResources.expectedLabels, List.forall_mem_cons] at h h'
  obtain ⟨h₁, h₂, h₃, -⟩ := h
  obtain ⟨h₁', h₂', h₃', -⟩ := h'
  rw [ClusterResources.expectedLabels, ClusterResources.expectedLabels,
    Option.some.inj (h₁.symm.trans h₁'), Option.some.inj (h₂.symm.trans h₂'),
    Option.some.inj (h₃.symm.trans h₃')]

/-- The object is not among the orphans of the cluster. -/
theorem not_isTarget_of_isOrphan (hapi : api.IsDocumented) (h : self.IsStored w)
    {cluster : ClusterResources} (hspared : self.SparedBy cluster)
    (hstrategy : cluster.applyStrategy.deleteOrphans = true) {k : Kind} {object : Object F k}
    (horphan : cluster.IsOrphan w k object) : ¬ self.IsTarget object := by
  rintro ⟨hkind, hns, hn⟩
  subst hkind
  obtain ⟨o, hstored, hnamespace, hname, huid, hlabels⟩ := h
  obtain ⟨hnamespace', hname'⟩ := horphan.key hapi
  have hsame : object = o := hapi.eq_of_name_eq horphan.stored hstored
    (by rw [hnamespace', hns, hnamespace]) (by rw [hname', hn, hname])
  subst hsame
  cases hspared with
  | passive hpassive => exact absurd (hstrategy.symm.trans hpassive) (by simp)
  | foreign hforeign =>
    rcases hforeign with hne | hne
    · exact hne (Option.some.inj (horphan.belongs.inNamespace.symm.trans hnamespace))
    · exact hne (expectedLabels_eq horphan.belongs.labels hlabels)
  | added hadded =>
    obtain ⟨id, hid, hnotAdded⟩ := horphan.notAdded
    exact hnotAdded (Option.some.inj (hid.symm.trans huid) ▸ hadded)

/-- No orphan that is still to be deleted is in this place. -/
def IsSafeFrom (self : Resident) {k : Kind} : DeletionTask F k → Prop
  | .deleting rest => ∀ o ∈ rest, ¬ self.IsTarget o
  | .start | .done | .skipped => True

/-- A step of a deletion which spares the object does no harm and goes on to spare it. -/
theorem unharmed_deleteOrphanedResourcesOfKind (hapi : api.IsDocumented) (h : self.IsStored w)
    {cluster : ClusterResources} (hspared : self.SparedBy cluster) {k : Kind}
    {t : DeletionTask F k} (ht : self.IsSafeFrom t) :
    self.Unharmed w (cluster.deleteOrphanedResourcesOfKind k t w).2 ∧
      ∀ t', (cluster.deleteOrphanedResourcesOfKind k t w).1 = .ok t' → self.IsSafeFrom t' := by
  cases t with
  | start =>
    -- the list request only reads
    have hlist : self.Unharmed w (cluster.listDeployedClusterResources k w).2 :=
      .of_readOnly h (readOnly_listDeployedClusterResources hapi cluster k w)
    rw [deleteOrphanedResourcesOfKind]
    split
    · refine ⟨.refl h, fun t' ht' => ?_⟩
      obtain rfl := Except.ok.inj ht'
      trivial
    · rename_i hnot
      have hstrategy : cluster.applyStrategy.deleteOrphans = true := by simpa using hnot
      split
      · rename_i deployed w' hdeployed
        rw [hdeployed] at hlist
        refine ⟨hlist, fun t' ht' => ?_⟩
        cases horphaned : cluster.orphanedResources deployed with
        | error e =>
          rw [horphaned] at ht'
          cases ht'
        | ok orphaned =>
          rw [horphaned] at ht'
          obtain rfl := Except.ok.inj ht'
          -- what is to be deleted are orphans, and the object is none
          have horphans := (settled_of_list hapi (fun _ => Iff.rfl) hdeployed horphaned).1
          exact fun o ho => not_isTarget_of_isOrphan hapi h hspared hstrategy (horphans o ho)
      · rename_i w' hforbidden
        rw [hforbidden] at hlist
        refine ⟨hlist, fun t' ht' => ?_⟩
        obtain rfl := Except.ok.inj ht'
        trivial
      · rename_i e w' _ herror
        rw [herror] at hlist
        exact ⟨hlist, fun t' ht' => by cases ht'⟩
  | deleting rest =>
    cases rest with
    | nil =>
      refine ⟨.refl h, fun t' ht' => ?_⟩
      obtain rfl := Except.ok.inj ht'
      trivial
    | cons object rest =>
      -- the object is not among those left to delete
      have hdelete : self.Unharmed w (Client.delete w object).2 :=
        .delete hapi h (ht object List.mem_cons_self)
      rw [deleteOrphanedResourcesOfKind]
      split
      · rename_i w' hok
        rw [hok] at hdelete
        refine ⟨hdelete, fun t' ht' => ?_⟩
        obtain rfl := Except.ok.inj ht'
        exact fun o ho => ht o (List.mem_cons_of_mem _ ho)
      · rename_i e w' herror
        rw [herror] at hdelete
        exact ⟨hdelete, fun t' ht' => by cases ht'⟩
  | done | skipped =>
    refine ⟨.refl h, fun t' ht' => ?_⟩
    obtain rfl := Except.ok.inj ht'
    trivial

end Resident

end Steps

/-! ### Overlapping reconciles -/

open ClusterResources

/-- How far a reconcile has come. -/
inductive Reconcile (F : Type) (crds : Bool) : Type
  | adding (cluster : ClusterResources) (resources : List ((k : Kind) × Object F k))
  | deleting (cluster : ClusterResources)
      (tasks : (k : { k // k ∈ deletionKinds crds }) → DeletionTask F k)
  | ended

section Reconciles

variable {F : Type} [Inhabited F] {api : KubeApi F} {crds : Bool}

/-- What a reconcile does next. It ends with the first error, or when the operator is stopped. -/
inductive Reconcile.Next (types : KubeTypes F) (client : Client) :
    Reconcile F crds → World api → Reconcile F crds → World api → Prop
  | add {cluster cluster' k resource resources patched w w'} :
      cluster.add types client w resource = (.ok patched, cluster', w') →
      Next types client (.adding cluster (⟨k, resource⟩ :: resources)) w
        (.adding cluster' resources) w'
  | addError {cluster cluster' k resource resources e w w'} :
      cluster.add types client w resource = (.error e, cluster', w') →
      Next types client (.adding cluster (⟨k, resource⟩ :: resources)) w .ended w'
  | delete {cluster w} :
      Next types client (.adding cluster []) w (.deleting cluster fun _ => .start) w
  | resume {cluster tasks w w'} {k : { k // k ∈ deletionKinds crds }} {t : DeletionTask F k} :
      cluster.deleteOrphanedResourcesOfKind k (tasks k) w = (.ok t, w') →
      Next types client (.deleting cluster tasks) w
        (.deleting cluster (Function.update tasks k t)) w'
  | resumeError {cluster tasks e w w'} {k : { k // k ∈ deletionKinds crds }} :
      cluster.deleteOrphanedResourcesOfKind k (tasks k) w = (.error e, w') →
      Next types client (.deleting cluster tasks) w .ended w'
  | stop {p w} : Next types client p w .ended w

/-- Reconciles of clusters and resources that are admitted. -/
def reconciles (types : KubeTypes F) (client : Client) (api : KubeApi F) (crds : Bool)
    (admitted : ClusterResources → List ((k : Kind) × Object F k) → Prop) :
    Interleaving (Reconcile F crds) (World api) where
  start p := ∃ cluster resources, p = .adding cluster resources ∧ admitted cluster resources
  next := Reconcile.Next types client

variable {types : KubeTypes F} {client : Client}
  {admitted : ClusterResources → List ((k : Kind) × Object F k) → Prop}

theorem Reconcile.Next.reach {p p' : Reconcile F crds} {w w' : World api}
    (h : Reconcile.Next types client p w p' w') :
    (reconciles types client api crds admitted).Reach (w, [p]) (w', [p']) :=
  Interleaving.reach_of_next h

/-- Adding all resources is a run of a reconcile. -/
theorem reach_addAll {resources returned : List ((k : Kind) × Object F k)}
    {cluster cluster' : ClusterResources} {w w' : World api}
    (h : cluster.addAll types client w resources = (.ok returned, cluster', w')) :
    (reconciles types client api crds admitted).Reach (w, [.adding cluster resources])
      (w', [.adding cluster' []]) := by
  induction resources generalizing cluster w returned with
  | nil =>
    obtain ⟨rfl, rfl⟩ := Prod.mk.inj (Prod.mk.inj h).2
    exact .refl
  | cons r resources ih =>
    obtain ⟨k, resource⟩ := r
    rw [addAll] at h
    split at h
    · cases (Prod.mk.inj h).1
    · rename_i patched cluster₁ w₁ hadd
      obtain ⟨hreturned, hrest⟩ := Prod.mk.inj h
      cases hall : addAll types client cluster₁ w₁ resources with
      | mk answer rest =>
        rw [hall] at hreturned hrest
        cases answer with
        | error e => cases hreturned
        | ok returned' =>
          obtain rfl : rest = (cluster', w') := hrest
          exact (Reconcile.Next.add hadd).reach.trans (ih hall)

/-- **One reconcile**: adding resources and then deleting orphaned resources, as far as it gets
in any schedule, is a run of the system. As long as there is no error, the reconcile has the tasks
of the deletion. -/
theorem reach_deleteOrphanedResources {resources returned : List ((k : Kind) × Object F k)}
    {cluster cluster' : ClusterResources} (hadmitted : admitted cluster resources)
    {w w₀ : World api}
    (hadd : cluster.addAll types client w resources = (.ok returned, cluster', w₀))
    (schedule : List { k // k ∈ deletionKinds crds }) :
    let d := cluster'.deleteOrphanedResources crds w₀ schedule
    ∃ p, (d.error = none → p = .deleting cluster' d.tasks) ∧
      (reconciles types client api crds admitted).Reach (w, []) (d.world, [p]) := by
  have hstart : (reconciles types client api crds admitted).Reach (w, [])
      (w₀, [.deleting cluster' fun _ => .start]) := by
    refine .trans (.single (.start ⟨cluster, resources, rfl, hadmitted⟩)) ?_
    exact (reach_addAll hadd).trans Reconcile.Next.delete.reach
  refine TryJoin.run_induction (P := fun d : Deletion api crds =>
    ∃ p, (d.error = none → p = .deleting cluster' d.tasks) ∧
      (reconciles types client api crds admitted).Reach (w, []) (d.world, [p]))
    ?_ ?_ ?_ schedule
  · rintro d k t w' ⟨p, hp, hreach⟩ hnone hresume
    obtain rfl := hp hnone
    exact ⟨_, fun _ => rfl, hreach.trans (Reconcile.Next.resume hresume).reach⟩
  · rintro d k e w' ⟨p, hp, hreach⟩ hnone hresume
    obtain rfl := hp hnone
    exact ⟨.ended, fun herror => absurd herror (Option.some_ne_none e),
      hreach.trans (Reconcile.Next.resumeError hresume).reach⟩
  · exact ⟨_, fun _ => rfl, hstart⟩

/-! ### Safety -/

namespace Resident

/-- A reconcile that does not harm the object. -/
inductive RespectedBy (types : KubeTypes F) (resident : Resident) (cluster : ClusterResources)
    (resources : List ((k : Kind) × Object F k)) : Prop
  /-- Nothing is applied or deleted. -/
  | passive : cluster.applyStrategy.deleteOrphans = false →
      RespectedBy types resident cluster resources
  /-- Another cluster, which does not add the object. -/
  | foreign : resident.IsForeignTo cluster → (∀ r ∈ resources, ¬ resident.IsTarget r.2) →
      RespectedBy types resident cluster resources
  /-- The cluster itself, which adds the object, or has added it, with the labels. -/
  | own : cluster.expectedLabels = resident.cluster.expectedLabels →
      ((∃ r ∈ resources, resident.IsTarget r.2) ∨ resident.uid ∈ cluster.resourceIds) →
      (∀ r ∈ resources, resident.IsTarget r.2 → cluster.KeepsLabels types r.2) →
      RespectedBy types resident cluster resources

variable {self : Resident} {w w' : World api}

/-- The invariant of a reconcile. -/
def IsRespectedBy (types : KubeTypes F) (self : Resident) : Reconcile F crds → Prop
  | .adding cluster resources => self.RespectedBy types cluster resources
  | .deleting cluster tasks => self.SparedBy cluster ∧ ∀ k, self.IsSafeFrom (tasks k)
  | .ended => True

/-- What is left to add respects the object after a resource was added. -/
theorem RespectedBy.of_add (hapi : api.IsDocumented) (hplace : api.AppliesInPlace)
    (htypes : types.IsDocumented) (hstored : self.IsStored w)
    {cluster cluster' : ClusterResources} {k : Kind} {resource patched : Object F k}
    {resources : List ((k : Kind) × Object F k)}
    (h : self.RespectedBy types cluster (⟨k, resource⟩ :: resources))
    (hadd : cluster.add types client w resource = (.ok patched, cluster', w')) :
    self.RespectedBy types cluster' resources := by
  have hrecorded := @uid_mem_of_add F types api client _ self w w' hapi hplace htypes hstored
    cluster cluster'
  obtain ⟨-, mutated, resourceId, -, -, -, rfl⟩ := add_eq_ok hadd
  cases h with
  | passive hpassive => exact .passive hpassive
  | foreign hforeign hother =>
    exact .foreign hforeign fun r hr => hother r (List.mem_cons_of_mem _ hr)
  | own hlabels hadded hkeeps =>
    by_cases hstrategy : cluster.applyStrategy.deleteOrphans = true
    · refine .own hlabels ?_ fun r hr => hkeeps r (List.mem_cons_of_mem _ hr)
      rcases hadded with ⟨r, hr, htarget⟩ | hadded
      · rcases List.mem_cons.mp hr with rfl | hr
        · exact .inr (hrecorded hstrategy htarget hadd)
        · exact .inl ⟨r, hr, htarget⟩
      · exact .inr (Finset.mem_insert_of_mem hadded)
    · exact .passive (Bool.eq_false_iff.mpr hstrategy)

/-- Adding a resource of a reconcile that respects the object does no harm. -/
theorem RespectedBy.unharmed (hapi : api.IsDocumented) (hplace : api.AppliesInPlace)
    (htypes : types.IsDocumented) (hstored : self.IsStored w) {cluster : ClusterResources}
    {k : Kind} {resource : Object F k} {resources : List ((k : Kind) × Object F k)}
    (h : self.RespectedBy types cluster (⟨k, resource⟩ :: resources)) :
    self.Unharmed w (cluster.add types client w resource).2.2 := by
  refine .add hapi hplace htypes hstored fun htarget hstrategy => ?_
  cases h with
  | passive hpassive => exact absurd (hstrategy.symm.trans hpassive) (by simp)
  | foreign _ hother => exact absurd htarget (hother _ List.mem_cons_self)
  | own hlabels _ hkeeps => exact ⟨hlabels, hkeeps _ List.mem_cons_self htarget⟩

omit [Inhabited F] in
/-- When everything is added, the deletion spares the object. -/
theorem RespectedBy.sparedBy {cluster : ClusterResources}
    (h : self.RespectedBy types cluster []) : self.SparedBy cluster := by
  cases h with
  | passive hpassive => exact .passive hpassive
  | foreign hforeign => exact .foreign hforeign
  | own _ hadded => exact .added (hadded.resolve_left (by simp))

/-- **One step of a reconcile** does no harm and keeps its invariant. -/
theorem IsRespectedBy.next (hapi : api.IsDocumented) (hplace : api.AppliesInPlace)
    (htypes : types.IsDocumented) (hstored : self.IsStored w) {p p' : Reconcile F crds}
    (h : self.IsRespectedBy types p) (hnext : Reconcile.Next types client p w p' w') :
    self.Unharmed w w' ∧ self.IsRespectedBy types p' := by
  cases hnext with
  | @add cluster _ k resource _ _ _ _ hadd =>
    have hunharmed : self.Unharmed w (cluster.add types client w resource).2.2 :=
      RespectedBy.unharmed hapi hplace htypes hstored h
    rw [hadd] at hunharmed
    exact ⟨hunharmed, RespectedBy.of_add hapi hplace htypes hstored h hadd⟩
  | @addError cluster _ k resource _ _ _ _ hadd =>
    have hunharmed : self.Unharmed w (cluster.add types client w resource).2.2 :=
      RespectedBy.unharmed hapi hplace htypes hstored h
    rw [hadd] at hunharmed
    exact ⟨hunharmed, trivial⟩
  | delete => exact ⟨.refl hstored, RespectedBy.sparedBy h, fun _ => trivial⟩
  | @resume cluster tasks _ _ k t hresume =>
    obtain ⟨hspared, hsafe⟩ := h
    have hstep := unharmed_deleteOrphanedResourcesOfKind hapi hstored hspared (hsafe k)
    rw [hresume] at hstep
    refine ⟨hstep.1, hspared, fun k' => ?_⟩
    by_cases hk : k' = k
    · subst hk
      rw [Function.update_self]
      exact hstep.2 t rfl
    · rw [Function.update_of_ne hk]
      exact hsafe k'
  | @resumeError cluster tasks _ _ _ k hresume =>
    obtain ⟨hspared, hsafe⟩ := h
    have hstep := unharmed_deleteOrphanedResourcesOfKind hapi hstored hspared (hsafe k)
    rw [hresume] at hstep
    exact ⟨hstep.1, trivial⟩
  | stop => exact ⟨.refl hstored, trivial⟩

/-- **Objects that are reconciled stay**: an object is stored with its uid and the labels of its
cluster. Any number of reconciles run, for any clusters, in any interleaving of their requests, and
each of them may fail or be stopped at any moment. If every reconcile of the cluster adds the
object, with overrides that keep its labels, and no reconcile of another cluster does, then the
object is stored at any later moment, still with its uid and the labels, and no request asks to
delete it. -/
theorem unharmed_of_reach (hapi : api.IsDocumented) (hplace : api.AppliesInPlace)
    (htypes : types.IsDocumented) (hstored : self.IsStored w) {ps : List (Reconcile F crds)}
    (hreach : (reconciles types client api crds (self.RespectedBy types)).Reach (w, [])
      (w', ps)) : self.Unharmed w w' := by
  have hinv := Interleaving.invariant (I := self.Unharmed w)
    (J := fun _ => self.IsRespectedBy types) ?_ ?_ ?_ hreach ⟨.refl hstored, by simp⟩
  · exact hinv.world
  · rintro v p hv ⟨cluster, resources, rfl, hrespected⟩
    exact hrespected
  · intro v p v' p' hv hp hnext
    obtain ⟨hunharmed, hp'⟩ := hp.next hapi hplace htypes hv.stored hnext
    exact ⟨hv.trans hunharmed, hp'⟩
  · intro v p v' p' q _ _ _ hq
    exact hq

end Resident

end Reconciles

/-! ### A cluster in memory -/

/-- The ConfigMap `"old"` of a cluster. -/
def simpleResident : Resident where
  kind := .configMap
  «namespace» := "default"
  name := "old"
  uid := "0"
  cluster := simpleHdfs .default []

/-- Delete orphaned resources after the ConfigMap was added again. -/
def simpleReconcile : Except Error (List ((k : Kind) × Object Unit k)) × ClusterResources ×
    World (Store.api Unit) :=
  (simpleHdfs .default []).addAll unitTypes ⟨none⟩ simpleWorld
    [⟨.configMap, simpleObject .configMap "old" none ()⟩]

/-- The ConfigMap stays when its cluster is reconciled with it. -/
theorem unharmed_simpleResident : simpleResident.Unharmed simpleWorld
    (simpleReconcile.2.1.deleteOrphanedResources true simpleReconcile.2.2 (rounds 3)).world := by
  have hstored : simpleResident.IsStored simpleWorld :=
    ⟨simpleObject .configMap "old" (some "0") (), ⟨("default", "old"), rfl⟩, rfl, rfl, rfl,
      by decide⟩
  have hrespected : simpleResident.RespectedBy unitTypes (simpleHdfs .default [])
      [⟨.configMap, simpleObject .configMap "old" none ()⟩] := by
    refine .own rfl (.inl ⟨_, List.mem_cons_self, rfl, rfl, rfl⟩) fun r _ _ e _ v hv => ?_
    exact absurd hv (by simp [ObjectOverrides.lastSet, ObjectOverrides.mergesFor, simpleHdfs])
  have hadd : simpleReconcile = (.ok [⟨.configMap, simpleObject .configMap "old" (some "0") ()⟩],
      simpleReconcile.2.1, simpleReconcile.2.2) := rfl
  obtain ⟨p, -, hreach⟩ := reach_deleteOrphanedResources hrespected hadd (rounds 3)
  exact Resident.unharmed_of_reach Store.isDocumented_api Store.appliesInPlace_api
    isDocumented_unitTypes hstored hreach

end StackableOperator
