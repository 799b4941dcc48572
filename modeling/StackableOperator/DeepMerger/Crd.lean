import Mathlib
import StackableOperator.ClusterResources.Overrides

/-!
# Applying object overrides

`ObjectOverrides.applyTo` changes the object in place, and decides for each override whether it is
meant for the object as it is at that moment. `applyTo_objectOverrides` says what this amounts to:
only the overrides that are meant for the original object matter, they are merged in their order,
and an override that cannot be parsed ends the loop with the object merged so far.
-/

namespace StackableOperator

namespace ObjectOverrides

open ClusterResources

variable {F : Type} {types : KubeTypes F} {k : Kind}

/-- **Applying overrides**: overrides for other objects have no effect. If those that are meant for
the original object can be parsed, the result is the fold of their merges, in their order. Else the
call fails with the first one that cannot be parsed, and the object is the fold of the merges
before it. -/
theorem applyTo_objectOverrides (htypes : types.IsDocumented) (overrides : ObjectOverrides)
    (base : Object F k) :
    overrides.applyTo types base =
      applyTo types (overrides.filter fun o => o.appliesTo k base.metadata) base ∧
    (((∀ o ∈ overrides, IsApplicable types k base.metadata o) ∧
      overrides.applyTo types base =
        ((mergesFor types overrides base).foldl types.mergeFrom base, .ok ())) ∨
    ∃ front o rest source, overrides = front ++ o :: rest ∧
      (∀ o' ∈ front, IsApplicable types k base.metadata o') ∧
      o.appliesTo k base.metadata = true ∧ types.tryParse k o = .error source ∧
      overrides.applyTo types base = ((mergesFor types front base).foldl types.mergeFrom base,
        .error ⟨source, k.apiVersion, k.name⟩)) := by
  exact ⟨(applyTo_filter htypes overrides base).symm, applyTo_cases htypes overrides base⟩

/-- The override for a ConfigMap has no effect on the StatefulSet. -/
theorem applyTo_objectOverrides_simpleStatefulSet :
    applyTo unitTypes [replicasOverride "2", labelOverride "other", replicasOverride "many",
        replicasOverride "4"] simpleStatefulSet =
      applyTo unitTypes [replicasOverride "2", replicasOverride "many", replicasOverride "4"]
        simpleStatefulSet :=
  (applyTo_objectOverrides isDocumented_unitTypes _ simpleStatefulSet).1

/-- An override that cannot be parsed leaves the merges of the overrides before it. -/
theorem applyTo_not_atomic :
    ∃ e, (applyTo unitTypes [replicasOverride "2", replicasOverride "many"]
        simpleStatefulSet).2 = .error e ∧
      (applyTo unitTypes [replicasOverride "2", replicasOverride "many"] simpleStatefulSet).1 ≠
        simpleStatefulSet := by
  refine ⟨_, rfl, fun h => ?_⟩
  have hreplicas := congrArg (fun o => Object.replicas o.contents) h
  exact absurd hreplicas (by decide)

end ObjectOverrides

end StackableOperator
