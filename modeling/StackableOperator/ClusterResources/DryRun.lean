import Mathlib
import StackableOperator.ClusterResources.Overrides

/-!
# Dry runs

With the strategy `noApply` a resource is not applied but returned as it is. `add` nevertheless
records the uid of the returned resource, and a resource that was never applied has none unless
somebody set it. `add_noApply_iff` says that this is all that can go wrong with a dry run.
-/

namespace StackableOperator

namespace ClusterResources

open ObjectOverrides

variable {F : Type} {types : KubeTypes F} {api : KubeApi F} {client : Client} {k : Kind}

/-- The resource has a uid, or an override that is meant for it sets one. -/
def HasUid (overrides : ObjectOverrides) (resource : Object F k) : Prop :=
  resource.metadata.uid.isSome = true ∨
    ∃ o ∈ overrides, o.appliesTo k resource.metadata = true ∧ o.metadata.uid.isSome = true

/-- The last value exists iff some object sets one. -/
theorem isSome_lastSet {β : Type} {observe : Object F k → Option β}
    {merges : List (Object F k)} :
    (lastSet observe merges).isSome = true ↔ ∃ o ∈ merges, (observe o).isSome = true := by
  rw [lastSet, List.findSome?_isSome_iff]
  simp only [List.mem_reverse]

/-- The object with the overrides has a uid iff the original one has one or an override sets
it. -/
theorem isSome_uid_applyTo_iff (htypes : types.IsDocumented)
    (huid : ∀ base other : Object F k,
      (types.mergeFrom base other).metadata.uid = other.metadata.uid.or base.metadata.uid)
    {overrides : ObjectOverrides} {base applied : Object F k}
    (h : overrides.applyTo types base = (applied, .ok ())) :
    applied.metadata.uid.isSome = true ↔ HasUid overrides base := by
  have huids : applied.metadata.uid =
      (lastSet (fun o => o.metadata.uid) (mergesFor types overrides base)).or
        base.metadata.uid := by
    rw [applyTo_eq_foldl htypes h]
    exact @observe_foldl F types k String (fun o => o.metadata.uid) huid _ base
  rw [huids, Option.isSome_or, Bool.or_eq_true, isSome_lastSet, or_comm]
  refine or_congr Iff.rfl ⟨?_, ?_⟩
  · rintro ⟨d, hd, hset⟩
    obtain ⟨o, ho, happlies, hparse⟩ := mem_mergesFor.mp hd
    exact ⟨o, ho, happlies, htypes.metadata_tryParse hparse ▸ hset⟩
  · rintro ⟨o, ho, happlies, hset⟩
    obtain ⟨hall, -⟩ | ⟨_, _, _, _, -, -, -, -, hfail⟩ := applyTo_cases htypes overrides base
    · obtain ⟨d, hparse⟩ := hall o ho happlies
      exact ⟨d, mem_mergesFor.mpr ⟨o, ho, happlies, hparse⟩,
        htypes.metadata_tryParse hparse ▸ hset⟩
    · exact absurd (Prod.mk.inj (h.symm.trans hfail)).2 (by simp)

variable [Inhabited F]

/-- A dry run sends no request. Without a uid it is an error. -/
theorem add_noApply {self : ClusterResources} (hstrategy : self.applyStrategy = .noApply)
    {resource applied : Object F k}
    (hlabels : checkLabels resource.metadata self.expectedLabels = .ok ())
    (hoverrides : self.objectOverrides.applyTo types resource = (applied, .ok ()))
    (w : World api) :
    self.add types client w resource =
      match applied.metadata.uid with
      | none => (.error (.missingObjectKey "metadata/uid"), self, w)
      | some resourceId =>
        (.ok applied, { self with resourceIds := insert resourceId self.resourceIds }, w) := by
  have hmutate : resource.maybeMutate self.applyStrategy = resource := by
    rw [hstrategy]
    cases k <;> rfl
  rw [add, hlabels, hmutate, hoverrides, hstrategy]
  rfl

/-- **Dry runs**: if a resource has the labels of the cluster and the overrides apply without an
error, a dry run returns the resource with the overrides iff the resource has a uid or an override
sets one. In any case no request is sent, and without a uid the result is an error. -/
theorem add_noApply_iff (htypes : types.IsDocumented)
    (huid : ∀ base other : Object F k,
      (types.mergeFrom base other).metadata.uid = other.metadata.uid.or base.metadata.uid)
    {self : ClusterResources} (hstrategy : self.applyStrategy = .noApply)
    {resource applied : Object F k}
    (hlabels : ∀ e ∈ self.expectedLabels, resource.metadata.label? e.1 = some e.2)
    (hoverrides : self.objectOverrides.applyTo types (resource.maybeMutate self.applyStrategy) =
      (applied, .ok ())) (w : World api) :
    (((self.add types client w resource).1 = .ok applied ∧
        (self.add types client w resource).2.2 = w) ↔ HasUid self.objectOverrides resource) ∧
    (self.add types client w resource).2.2 = w ∧
    (¬ HasUid self.objectOverrides resource →
      (self.add types client w resource).1 = .error (.missingObjectKey "metadata/uid")) := by
  have hmutate : resource.maybeMutate self.applyStrategy = resource := by
    rw [hstrategy]
    cases k <;> rfl
  rw [hmutate] at hoverrides
  rw [add_noApply hstrategy (checkLabels_eq_ok_iff.mpr hlabels) hoverrides,
    ← isSome_uid_applyTo_iff htypes huid hoverrides]
  cases applied.metadata.uid with
  | none => simp
  | some resourceId => simp

/-- A ConfigMap that has a uid is returned by a dry run. -/
theorem add_noApply_created :
    (((simpleHdfs .noApply []).add unitTypes ⟨none⟩ simpleWorld
        (simpleObject .configMap "old" (some "0") ())).1 =
          .ok (simpleObject .configMap "old" (some "0") ()) ∧
      ((simpleHdfs .noApply []).add unitTypes ⟨none⟩ simpleWorld
        (simpleObject .configMap "old" (some "0") ())).2.2 = simpleWorld) := by
  have hlabels : ∀ e ∈ (simpleHdfs .noApply []).expectedLabels,
      (simpleObject .configMap "old" (some "0") ()).metadata.label? e.1 = some e.2 := by decide
  have huid : ∀ base other : Object Unit .configMap, (unitTypes.mergeFrom base other).metadata.uid =
      other.metadata.uid.or base.metadata.uid := fun _ _ => rfl
  exact (add_noApply_iff isDocumented_unitTypes huid rfl hlabels rfl simpleWorld).1.mpr (.inl rfl)

/-- A ConfigMap that has the labels of the cluster but was not created yet is an error. -/
theorem add_noApply_fresh :
    (∀ e ∈ (simpleHdfs .noApply []).expectedLabels,
      (simpleObject .configMap "new" none ()).metadata.label? e.1 = some e.2) ∧
    (simpleHdfs .noApply []).objectOverrides.applyTo unitTypes
        (simpleObject .configMap "new" none ()) =
      (simpleObject .configMap "new" none (), .ok ()) ∧
    ((simpleHdfs .noApply []).add unitTypes ⟨none⟩ simpleWorld
        (simpleObject .configMap "new" none ())).1 =
      .error (.missingObjectKey "metadata/uid") :=
  ⟨by decide, rfl, rfl⟩

end ClusterResources

end StackableOperator
