import Mathlib
import StackableOperator.K8sVersion.FromStr

/-!
# Arithmetic of levels

`+` and `-` give a new level, `+=` and `-=` compute the same number and drop it. Arithmetic of
machine integers panics on overflow (`none`) in builds with overflow checks and wraps around in
others. `run_agrees_iff` says for which sequences of steps the assigning forms end with the level
of the expressions.
-/

namespace StackableOperator

/-- `lhs + rhs` for `u64` -/
def addU64 (overflowChecks : Bool) (lhs rhs : ℕ) : Option ℕ :=
  if lhs + rhs < u64Size then some (lhs + rhs)
  else if overflowChecks then none
  else some ((lhs + rhs) % u64Size)

/-- `lhs - rhs` for `u64` -/
def subU64 (overflowChecks : Bool) (lhs rhs : ℕ) : Option ℕ :=
  if rhs ≤ lhs then some (lhs - rhs)
  else if overflowChecks then none
  else some (u64Size + lhs - rhs)

namespace Level

variable (overflowChecks : Bool)

def add : Level → ℕ → Option Level
  | alpha lhs, rhs => (addU64 overflowChecks lhs rhs).map alpha
  | beta lhs, rhs => (addU64 overflowChecks lhs rhs).map beta

/-- The sum is computed, but `self` stays as it is. -/
def addAssign (self : Level) (rhs : ℕ) : Option Level :=
  match self with
  | alpha lhs | beta lhs => (addU64 overflowChecks lhs rhs).map fun _ => self

def sub : Level → ℕ → Option Level
  | alpha lhs, rhs => (subU64 overflowChecks lhs rhs).map alpha
  | beta lhs, rhs => (subU64 overflowChecks lhs rhs).map beta

/-- The difference is computed, but `self` stays as it is. -/
def subAssign (self : Level) (rhs : ℕ) : Option Level :=
  match self with
  | alpha lhs | beta lhs => (subU64 overflowChecks lhs rhs).map fun _ => self

/-- One step of a sequence. -/
inductive Step : Type
  | add (rhs : ℕ)
  | sub (rhs : ℕ)

def Step.run (self : Level) : Step → Option Level
  | .add rhs => self.add overflowChecks rhs
  | .sub rhs => self.sub overflowChecks rhs

def Step.runAssign (self : Level) : Step → Option Level
  | .add rhs => self.addAssign overflowChecks rhs
  | .sub rhs => self.subAssign overflowChecks rhs

/-- The steps as expressions. -/
def run (self : Level) (steps : List Step) : Option Level :=
  steps.foldlM (Step.run overflowChecks) self

/-- The steps as assignments. -/
def runAssign (self : Level) (steps : List Step) : Option Level :=
  steps.foldlM (Step.runAssign overflowChecks) self

/-! ### The values of a run -/

/-- The number of a level. -/
def version : Level → ℕ
  | alpha version | beta version => version

/-- The level of the same kind with another number. -/
def withVersion : Level → ℕ → Level
  | alpha _, version => alpha version
  | beta _, version => beta version

@[simp] theorem version_withVersion (self : Level) (n : ℕ) : (self.withVersion n).version = n := by
  cases self <;> rfl

@[simp] theorem withVersion_withVersion (self : Level) (m n : ℕ) :
    (self.withVersion m).withVersion n = self.withVersion n := by
  cases self <;> rfl

@[simp] theorem withVersion_version (self : Level) : self.withVersion self.version = self := by
  cases self <;> rfl

theorem add_eq (self : Level) (rhs : ℕ) :
    self.add overflowChecks rhs =
      (addU64 overflowChecks self.version rhs).map self.withVersion := by
  cases self <;> rfl

theorem sub_eq (self : Level) (rhs : ℕ) :
    self.sub overflowChecks rhs =
      (subU64 overflowChecks self.version rhs).map self.withVersion := by
  cases self <;> rfl

theorem addAssign_eq (self : Level) (rhs : ℕ) :
    self.addAssign overflowChecks rhs =
      (addU64 overflowChecks self.version rhs).map fun _ => self := by
  cases self <;> rfl

theorem subAssign_eq (self : Level) (rhs : ℕ) :
    self.subAssign overflowChecks rhs =
      (subU64 overflowChecks self.version rhs).map fun _ => self := by
  cases self <;> rfl

/-- The step does not leave `u64`. -/
def Step.Fits (n : ℕ) : Step → Prop
  | .add rhs => n + rhs < u64Size
  | .sub rhs => rhs ≤ n

instance (n : ℕ) : (step : Step) → Decidable (step.Fits n)
  | .add rhs => inferInstanceAs (Decidable (n + rhs < u64Size))
  | .sub rhs => inferInstanceAs (Decidable (rhs ≤ n))

/-- The running value after a step. -/
def Step.apply (n : ℕ) : Step → ℕ
  | .add rhs => n + rhs
  | .sub rhs => n - rhs

/-- The running value stays within `u64`. -/
def StaysWithin : ℕ → List Step → Prop
  | _, [] => True
  | n, step :: steps => step.Fits n ∧ StaysWithin (step.apply n) steps

/-- What a step adds. -/
def Step.delta : Step → ℤ
  | .add rhs => rhs
  | .sub rhs => -rhs

/-- What the steps add in total. -/
def total (steps : List Step) : ℤ := (steps.map Step.delta).sum

theorem Step.apply_eq {n : ℕ} {step : Step} (h : step.Fits n) :
    (step.apply n : ℤ) = n + step.delta := by
  match step, h with
  | .add rhs, _ => simp [Step.apply, Step.delta]
  | .sub rhs, h =>
    rw [Step.apply, Step.delta, Nat.cast_sub h, sub_eq_add_neg]

/-- What the running value is in the end. -/
theorem foldl_apply_eq {n : ℕ} {steps : List Step} (h : StaysWithin n steps) :
    ((steps.foldl Step.apply n : ℕ) : ℤ) = n + total steps := by
  induction steps generalizing n with
  | nil => simp [total]
  | cons step steps ih =>
    rw [List.foldl_cons, ih h.2, Step.apply_eq h.1, total, total, List.map_cons, List.sum_cons,
      add_assoc]

/-! ### Both forms -/

theorem Step.run_of_fits {self : Level} {step : Step} (h : step.Fits self.version) :
    step.run overflowChecks self = some (self.withVersion (step.apply self.version)) := by
  match step, h with
  | .add rhs, h =>
    rw [Step.run, add_eq, addU64,
      if_pos (show self.version + rhs < u64Size from h), Option.map_some, Step.apply]
  | .sub rhs, h =>
    rw [Step.run, sub_eq, subU64,
      if_pos (show rhs ≤ self.version from h), Option.map_some, Step.apply]

theorem Step.runAssign_of_fits {self : Level} {step : Step} (h : step.Fits self.version) :
    step.runAssign overflowChecks self = some self := by
  match step, h with
  | .add rhs, h =>
    rw [Step.runAssign, addAssign_eq, addU64,
      if_pos (show self.version + rhs < u64Size from h), Option.map_some]
  | .sub rhs, h =>
    rw [Step.runAssign, subAssign_eq, subU64,
      if_pos (show rhs ≤ self.version from h), Option.map_some]

theorem Step.runAssign_of_not_fits {self : Level} {step : Step} (h : ¬step.Fits self.version) :
    step.runAssign overflowChecks self = if overflowChecks then none else some self := by
  match step, h with
  | .add rhs, h =>
    rw [Step.runAssign, addAssign_eq, addU64,
      if_neg (show ¬self.version + rhs < u64Size from h)]
    cases overflowChecks <;> rfl
  | .sub rhs, h =>
    rw [Step.runAssign, subAssign_eq, subU64,
      if_neg (show ¬rhs ≤ self.version from h)]
    cases overflowChecks <;> rfl

/-- As expressions, the steps give the running value. -/
theorem run_eq {self : Level} {steps : List Step} (h : StaysWithin self.version steps) :
    run overflowChecks self steps =
      some (self.withVersion (steps.foldl Step.apply self.version)) := by
  induction steps generalizing self with
  | nil => simp [run]
  | cons step steps ih =>
    obtain ⟨hstep, hrest⟩ := h
    have hnext : run overflowChecks (self.withVersion (step.apply self.version)) steps =
        some (self.withVersion (steps.foldl Step.apply (step.apply self.version))) := by
      rw [ih (by rw [version_withVersion]; exact hrest), version_withVersion,
        withVersion_withVersion]
    rw [run, List.foldlM_cons, Step.run_of_fits overflowChecks hstep, List.foldl_cons]
    exact hnext

/-- As assignments, the steps leave the level as it is, unless one of them panics. -/
theorem runAssign_eq_some_iff {self level : Level} {steps : List Step} :
    runAssign overflowChecks self steps = some level ↔
      level = self ∧ (overflowChecks = true → ∀ step ∈ steps, step.Fits self.version) := by
  induction steps with
  | nil => simp [runAssign, eq_comm]
  | cons step steps ih =>
    rw [runAssign, List.foldlM_cons, List.forall_mem_cons]
    by_cases hstep : step.Fits self.version
    · rw [Step.runAssign_of_fits overflowChecks hstep]
      exact ih.trans (and_congr_right fun _ => forall_congr' fun _ => (and_iff_right hstep).symm)
    · rw [Step.runAssign_of_not_fits overflowChecks hstep]
      match overflowChecks with
      | true =>
        refine iff_of_false (by simp) ?_
        rintro ⟨-, hfits⟩
        exact hstep (hfits rfl).1
      | false => exact ih.trans (and_congr_right fun _ => by simp)

theorem lt_withVersion {self : Level} {n : ℕ} (h : self.version < n) :
    self < self.withVersion n := by
  rw [lt_iff]
  match self, h with
  | alpha version, h => exact compare_lt_iff_lt.mpr h
  | beta version, h => exact compare_lt_iff_lt.mpr h

/-- A level grows by adding. -/
def IncreasesByAdd (self : Level) : Prop :=
  ∀ n, 0 < n → self.version + n < u64Size →
    ∃ level, self.add overflowChecks n = some level ∧ self < level

theorem increasesByAdd (self : Level) : self.IncreasesByAdd overflowChecks := by
  intro n hpos hfits
  refine ⟨self.withVersion (self.version + n), ?_, lt_withVersion (by omega)⟩
  rw [add_eq, addU64, if_pos hfits]
  rfl

/-- **The assigning forms agree** with the expressions iff the steps cancel each other, and no
step panics. -/
theorem run_agrees_iff (self : Level) (steps : List Step)
    (h : StaysWithin self.version steps) :
    ((∃ level, runAssign overflowChecks self steps = some level ∧
        run overflowChecks self steps = some level) ∧ self.IncreasesByAdd overflowChecks) ↔
      total steps = 0 ∧
        (overflowChecks = true → ∀ step ∈ steps, step.Fits self.version) := by
  rw [and_iff_left (self.increasesByAdd overflowChecks), run_eq overflowChecks h]
  have hvalue := foldl_apply_eq h
  constructor
  · rintro ⟨level, hassign, hrun⟩
    obtain ⟨rfl, hfits⟩ := (runAssign_eq_some_iff overflowChecks).mp hassign
    refine ⟨?_, hfits⟩
    have hversion := congrArg version (Option.some.inj hrun)
    rw [version_withVersion] at hversion
    rw [hversion] at hvalue
    omega
  · rintro ⟨htotal, hfits⟩
    have hversion : steps.foldl Step.apply self.version = self.version := by omega
    refine ⟨self, (runAssign_eq_some_iff overflowChecks).mpr ⟨rfl, hfits⟩, ?_⟩
    rw [hversion, withVersion_version]

/-- The steps cancel each other, and stay within the bounds. -/
theorem run_agrees_alpha :
    (∃ level, runAssign true (alpha 5) [.add 3, .sub 3] = some level ∧
      run true (alpha 5) [.add 3, .sub 3] = some level) ∧ (alpha 5).IncreasesByAdd true :=
  (run_agrees_iff true (alpha 5) [.add 3, .sub 3] ⟨by decide, by decide, trivial⟩).mpr
    ⟨by decide, by decide⟩

/-- `+= 1` leaves a level as it is. -/
theorem run_disagrees_alpha :
    runAssign true (alpha 1) [.add 1] = some (alpha 1) ∧
      run true (alpha 1) [.add 1] = some (alpha 2) := by
  decide

end Level

end StackableOperator
