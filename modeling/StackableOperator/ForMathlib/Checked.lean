import Mathlib.Logic.Basic

/-!
# Values that pass a check

`checked check` reads the values that pass a check into their subtype. Exactly these values are
read, and they are kept as they are (`checked_eq_ok_iff`); all others have the error of the check.
-/

namespace StackableOperator

variable {α ε : Type} {check : α → Except ε Unit} {a : α}

/-- Keep a value that passes a check. -/
def checked (check : α → Except ε Unit) (a : α) : Except ε { a : α // check a = .ok () } :=
  match h : check a with
  | .ok () => .ok ⟨a, h⟩
  | .error e => .error e

theorem checked_of_eq_ok (h : check a = .ok ()) : checked check a = .ok ⟨a, h⟩ := by
  rw [checked]
  split
  · rfl
  · next e he =>
    rw [h] at he
    cases he

/-- What is read is the value itself. -/
theorem checked_eq_ok_iff {r : { a : α // check a = .ok () }} :
    checked check a = .ok r ↔ r.1 = a := by
  constructor
  · intro h
    rw [checked] at h
    split at h
    · rw [← Except.ok.inj h]
    · cases h
  · rintro rfl
    exact checked_of_eq_ok r.2

theorem exists_checked_iff : (∃ r, checked check a = .ok r) ↔ check a = .ok () := by
  constructor
  · rintro ⟨r, h⟩
    rw [← checked_eq_ok_iff.mp h]
    exact r.2
  · intro h
    exact ⟨_, checked_of_eq_ok h⟩

end StackableOperator
