import Mathlib
import StackableOperator.Status.ConditionMerge

/-!
# Conditions over a run of reconciles

In a `Run` each reconcile computes the conditions from those that the reconcile before it
stored. `Run.lastTransitionTime_run` says what the transition time of a type is after any
number of steps: the time of the latest step in which the status of the type changed. As long
as it did not change, the transition time is the one with which the type came into the status,
which is stored at the start of the run or taken from a report. Computing the conditions once
more from the same builders changes nothing.
-/

namespace StackableOperator

/-- A run of reconciles: builders and clock of every step, and the conditions stored before
it. -/
structure Run where
  builders : ℕ → List ConditionBuilder
  now : ℕ → ClusterConditionType → Time
  conditions : ℕ → List ClusterCondition
  step : ∀ n, computeConditions (conditions n) (builders n) (now n) = some (conditions (n + 1))

namespace Run

/-- Every start, every sequence of builders and every clock gives a run. -/
def ofBuilders (initial : List ClusterCondition) (builders : ℕ → List ConditionBuilder)
    (now : ℕ → ClusterConditionType → Time) : Run where
  builders := builders
  now := now
  conditions := Nat.rec initial fun n conditions =>
    (ConditionMap.computed conditions (builders n) (now n)).toList
  step n := computeConditions_eq _ (builders n) (now n)

variable (run : Run)

/-- The condition of a type that is stored before step `n`. -/
def stored (n : ℕ) (t : ClusterConditionType) : Option ClusterCondition :=
  (run.conditions n).reverse.find? fun c => c.type_ = t

/-- Step `n` changes the status of a type. -/
def Transition (n : ℕ) (t : ClusterConditionType) : Prop :=
  ∃ c c', run.stored n t = some c ∧ run.stored (n + 1) t = some c' ∧ c.status ≠ c'.status

variable {run} {t : ClusterConditionType}

/-- What one step does to the condition of a type. -/
theorem stored_succ (n : ℕ) :
    run.stored (n + 1) t =
      (run.stored n t).merge (fun old new => transition (run.now n new.type_) old new)
        (mergeReports (reports t (effective (run.builders n)))) := by
  have hstep : run.conditions (n + 1) =
      (ConditionMap.computed (run.conditions n) (run.builders n) (run.now n)).toList :=
    Option.some.inj ((run.step n).symm.trans (computeConditions_eq _ _ _))
  rw [stored, ← ConditionMap.get_ofList, hstep, ConditionMap.ofList_toList,
    ConditionMap.get_computed, ConditionMap.get_ofList, stored]

/-- A stored type stays; the time of its transition is kept iff the status is. -/
theorem exists_stored_succ {n : ℕ} {c : ClusterCondition} (h : run.stored n t = some c) :
    ∃ c', run.stored (n + 1) t = some c' ∧
      (c.status = c'.status → c'.lastTransitionTime = c.lastTransitionTime) ∧
      (c.status ≠ c'.status → c'.lastTransitionTime = some (run.now n t)) := by
  rw [stored_succ, h]
  cases hr : mergeReports (reports t (effective (run.builders n))) with
  | none => exact ⟨c, rfl, fun _ => rfl, fun hne => absurd rfl hne⟩
  | some r =>
    have htype : r.type_ = t := (ConditionMap.ofReports (effective (run.builders n))).type_get hr
    refine ⟨transition (run.now n r.type_) c r, rfl, fun heq => ?_, fun hne => ?_⟩
    · rw [transition_status] at heq
      rw [transition_of_status_eq heq]
    · rw [transition_status] at hne
      rw [transition_of_status_ne hne, htype]

/-- A stored type stays in the status. -/
theorem exists_stored_add {n : ℕ} {c : ClusterCondition} (h : run.stored n t = some c) (k : ℕ) :
    ∃ c', run.stored (n + k) t = some c' := by
  induction k with
  | zero => exact ⟨c, h⟩
  | succ k ih =>
    obtain ⟨c₁, h₁⟩ := ih
    obtain ⟨c₂, h₂, -⟩ := exists_stored_succ h₁
    exact ⟨c₂, h₂⟩

/-- Without a transition the transition time is kept, over any number of steps. -/
theorem lastTransitionTime_add {n k : ℕ} {c c' : ClusterCondition}
    (h : run.stored n t = some c) (h' : run.stored (n + k) t = some c')
    (hno : ∀ i, n ≤ i → i < n + k → ¬ run.Transition i t) :
    c'.lastTransitionTime = c.lastTransitionTime := by
  induction k generalizing c' with
  | zero => rw [Option.some.inj (h'.symm.trans h)]
  | succ k ih =>
    obtain ⟨c₁, h₁⟩ := exists_stored_add h k
    obtain ⟨c₂, h₂, hkeep, -⟩ := exists_stored_succ h₁
    obtain rfl : c₂ = c' := Option.some.inj (h₂.symm.trans h')
    have hstatus : c₁.status = c₂.status := by
      by_contra hne
      exact hno (n + k) (by omega) (by omega) ⟨c₁, c₂, h₁, h₂, hne⟩
    rw [hkeep hstatus]
    exact ih h₁ fun i hi hlt => hno i hi (by omega)

/-- A type that is new in the status has the transition time of a report. -/
theorem exists_report_of_first {n : ℕ} {c : ClusterCondition} (h : run.stored n t = none)
    (h' : run.stored (n + 1) t = some c) :
    ∃ b ∈ run.builders n, ∃ r ∈ b.buildConditions.toVec, r.type_ = t ∧ r.status = c.status ∧
      r.lastTransitionTime = c.lastTransitionTime := by
  rw [stored_succ, h, Option.merge_none_left] at h'
  obtain ⟨r, hr, hstatus, htime⟩ := (isMergeOf_of_mergeReports h').lastTransitionTime
  obtain ⟨b, hb, hmem, htype⟩ := mem_reports_iff.mp hr
  exact ⟨b, (List.rtakeWhile_suffix _ _).subset hb, r, hmem, htype, hstatus, htime⟩

/-- Computing once more from the same builders gives the same family. -/
theorem computed_computed (resource : List ClusterCondition) (builders : List ConditionBuilder)
    (now now' : ClusterConditionType → Time) :
    ConditionMap.computed (ConditionMap.computed resource builders now).toList builders now' =
      ConditionMap.computed resource builders now := by
  ext1
  funext t
  rw [ConditionMap.get_computed, ConditionMap.ofList_toList, ConditionMap.get_computed]
  cases mergeReports (reports t (effective builders)) with
  | none => rw [Option.merge_none_right]
  | some r =>
    cases (ConditionMap.ofList resource).get t with
    | none => exact congrArg some (transition_of_status_eq rfl)
    | some c => exact congrArg some (transition_transition _ _ c r)

/-- **Transition times over a run.** After any number of steps, the transition time of a stored
type is the time of the latest step that changed its status. If no step did, it is the one that
was stored at the start or, for a type that appeared later, the one that a builder reported when
the type first appeared. Computing again with the builders of the last step gives the same
conditions. -/
theorem lastTransitionTime_run (run : Run) (t : ClusterConditionType) (n : ℕ) :
    (∀ c, run.stored n t = some c →
      (∀ i < n, run.Transition i t → (∀ j, i < j → j < n → ¬ run.Transition j t) →
        c.lastTransitionTime = some (run.now i t)) ∧
      ((∀ i < n, ¬ run.Transition i t) →
        (∀ c₀, run.stored 0 t = some c₀ → c.lastTransitionTime = c₀.lastTransitionTime) ∧
        (∀ j < n, run.stored j t = none → ∀ c₁, run.stored (j + 1) t = some c₁ →
          c.lastTransitionTime = c₁.lastTransitionTime ∧
          ∃ b ∈ run.builders j, ∃ r ∈ b.buildConditions.toVec, r.type_ = t ∧
            r.status = c₁.status ∧ r.lastTransitionTime = c₁.lastTransitionTime))) ∧
    ∀ now, computeConditions (run.conditions (n + 1)) (run.builders n) now =
      some (run.conditions (n + 1)) := by
  refine ⟨fun c hc => ⟨?_, fun hno => ⟨?_, ?_⟩⟩, fun now => ?_⟩
  · intro i hi htrans hlast
    obtain ⟨c₀, c₁, h₀, h₁, hne⟩ := htrans
    obtain ⟨c₂, h₂, -, hnow⟩ := exists_stored_succ h₀
    obtain rfl : c₁ = c₂ := Option.some.inj (h₁.symm.trans h₂)
    obtain ⟨k, rfl⟩ : ∃ k, n = i + 1 + k := ⟨n - (i + 1), by omega⟩
    rw [lastTransitionTime_add h₁ hc fun j hj hlt => hlast j (by omega) hlt]
    exact hnow hne
  · intro c₀ h₀
    rw [← Nat.zero_add n] at hc
    exact lastTransitionTime_add h₀ hc fun j _ hlt => hno j (by omega)
  · intro j hj hnone c₁ h₁
    obtain ⟨k, rfl⟩ : ∃ k, n = j + 1 + k := ⟨n - (j + 1), by omega⟩
    exact ⟨lastTransitionTime_add h₁ hc fun i _ hlt => hno i hlt,
      exists_report_of_first hnone h₁⟩
  · have hstep : run.conditions (n + 1) =
        (ConditionMap.computed (run.conditions n) (run.builders n) (run.now n)).toList :=
      Option.some.inj ((run.step n).symm.trans (computeConditions_eq _ _ _))
    rw [hstep, computeConditions_eq, computed_computed]

/-- A type that first appears is stored without the time of the step. -/
theorem lastTransitionTime_first_appearance :
    ∃ (run : Run) (c : ClusterCondition), run.stored 0 .available = none ∧
      run.stored 1 .available = some c ∧ c.lastTransitionTime ≠ some (run.now 0 .available) :=
  ⟨ofBuilders [] (fun _ => [.ofConditions [availableCondition]]) (fun _ _ => 7),
    availableCondition, rfl, rfl, by decide⟩

end Run

end StackableOperator
