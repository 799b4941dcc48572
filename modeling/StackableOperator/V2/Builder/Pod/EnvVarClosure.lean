import Mathlib
import StackableOperator.V2.Builder.Pod.EnvVarOrder

/-!
# Closures of environment variables

`calculateClosure` gives up at the maximum depth before it looks whether the variable there has
references at all. So a chain of exactly ten references to a variable with a literal value counts
as too long, while the same chain to a variable with another source does not
(`closureIsExact_iff`).
-/

namespace StackableOperator

namespace V2

namespace EnvVarSet

open Relation

variable {self : EnvVarSet} {a : EnvVar}

/-- There is no closure iff the variable reaches a cycle or a chain of references over the maximum
depth, and a closure has the names of what is referenced transitively. -/
structure ClosureIsExact (envVars : EnvVarSet) (a : EnvVar) : Prop where
  eq_none_iff : envVars.calculateClosure a = none ↔ ReachesCycle envVars.References a ∨
    ReachesWalkOver envVars.References envVarDependencyResolverMaxRecursionDepth a
  mem_iff : ∀ closure, envVars.calculateClosure a = some closure → ∀ name,
    name ∈ closure ↔ ∃ b, TransGen envVars.References a b ∧ b.name = name

theorem calculateClosure_eq_none_iff :
    self.calculateClosure a = none ↔ ¬self.Resolvable a := by
  rw [← Option.not_isSome_iff_eq_none, isSome_calculateClosure_iff]

/-- References that can be followed do not go on behind the maximum depth. -/
theorem Resolvable.not_walk (h : self.Resolvable a) (c : EnvVar) :
    ¬Walk self.References (envVarDependencyResolverMaxRecursionDepth + 1) a c :=
  not_walk_of_forall_walk h.forall_walk (Nat.lt_succ_self _)

/-- **When closures are exact**: a chain of more than ten references begins at the variable, or
each variable that is reached by exactly ten references has no literal value. -/
theorem closureIsExact_iff (self : EnvVarSet) (a : EnvVar) :
    self.ClosureIsExact a ↔
      (∃ c, Walk self.References (envVarDependencyResolverMaxRecursionDepth + 1) a c) ∨
        ∀ b, Walk self.References envVarDependencyResolverMaxRecursionDepth a b →
          b.value = none := by
  change self.ClosureIsExact a ↔ _ ∨ self.Resolvable a
  constructor
  · intro h
    have hnone := h.eq_none_iff
    rw [calculateClosure_eq_none_iff, reachesCycle_or_reachesWalkOver_iff] at hnone
    by_cases hr : self.Resolvable a
    · exact Or.inr hr
    · exact Or.inl (hnone.mp hr)
  · intro h
    refine ⟨?_, fun closure hclosure name => mem_calculateClosureRec_iff hclosure⟩
    rw [calculateClosure_eq_none_iff, reachesCycle_or_reachesWalkOver_iff]
    obtain ⟨c, hwalk⟩ | hr := h
    · exact iff_of_true (fun hr => hr.not_walk c hwalk) ⟨c, hwalk⟩
    · exact iff_of_false (not_not_intro hr) (not_exists.mpr hr.not_walk)

theorem isEnvVarName_b : "B" ≠ "" ∧ "B".toList.all isEnvVarNameChar = true := by decide

/-- A chain of ten references to a literal value. -/
def chainEnvVars : EnvVarSet :=
  new.withValues [(⟨"A", isEnvVarName_a⟩, "$(B)"), (⟨"B", isEnvVarName_b⟩, "$(C)"),
    (⟨"C", by decide⟩, "$(D)"), (⟨"D", by decide⟩, "$(E)"), (⟨"E", by decide⟩, "$(F)"),
    (⟨"F", by decide⟩, "$(G)"), (⟨"G", by decide⟩, "$(H)"), (⟨"H", by decide⟩, "$(I)"),
    (⟨"I", by decide⟩, "$(J)"), (⟨"J", by decide⟩, "$(K)"), (⟨"K", by decide⟩, "k")]

/-- All references of the chain can be followed with one more step. -/
theorem chainEnvVars_not_walk (c : EnvVar) :
    ¬Walk chainEnvVars.References 11 ⟨"A", some "$(B)", none⟩ c := by
  intro hwalk
  have hsome : (chainEnvVars.calculateClosureRec 11 ⟨"A", some "$(B)", none⟩).isSome = true := by
    decide +kernel
  have hnone := isSome_calculateClosureRec_iff.mp hsome c hwalk
  have hliteral : ∀ b ∈ chainEnvVars.values, b.value ≠ none := by decide +kernel
  have hmem : c ∈ chainEnvVars.values :=
    mem_values_of_transGen (transGen_iff_exists_walk.mpr ⟨10, hwalk⟩)
  exact hliteral c hmem hnone

/-- Ten references are too many for `calculateClosure`, although they lead to a literal value. -/
theorem chainEnvVars_not_closureIsExact :
    chainEnvVars.get ⟨"A", by decide⟩ = some ⟨"A", some "$(B)", none⟩ ∧
      chainEnvVars.calculateClosure ⟨"A", some "$(B)", none⟩ = none ∧
      ¬(ReachesCycle chainEnvVars.References ⟨"A", some "$(B)", none⟩ ∨
        ReachesWalkOver chainEnvVars.References envVarDependencyResolverMaxRecursionDepth
          ⟨"A", some "$(B)", none⟩) := by
  refine ⟨by decide +kernel, by decide +kernel, ?_⟩
  rw [reachesCycle_or_reachesWalkOver_iff]
  exact not_exists.mpr chainEnvVars_not_walk

end EnvVarSet

end V2

end StackableOperator
