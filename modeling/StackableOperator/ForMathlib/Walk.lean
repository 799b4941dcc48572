import Mathlib

/-!
# Walks of a given length

`Walk r n a b` says that `b` can be reached from `a` in exactly `n` steps of the relation `r`.
Where all walks of length `n` from `a` end in a vertex without successors, the part of the graph
that `a` reaches has no cycle (`not_transGen_self_of_forall_walk`). A vertex reaches a cycle or a
walk longer than `m` iff a walk of length `m + 1` begins there
(`reachesCycle_or_reachesWalkOver_iff`).
-/

namespace StackableOperator

open Relation

variable {α : Type*} {r : α → α → Prop}

/-- `b` is reached from `a` in `n` steps. -/
inductive Walk (r : α → α → Prop) : ℕ → α → α → Prop
  | nil (a : α) : Walk r 0 a a
  | cons {n : ℕ} {a b c : α} : r a b → Walk r n b c → Walk r (n + 1) a c

namespace Walk

variable {a b c : α} {m n : ℕ}

theorem zero_iff : Walk r 0 a b ↔ b = a := by
  constructor
  · rintro ⟨⟩
    rfl
  · rintro rfl
    exact nil _

theorem succ_iff : Walk r (n + 1) a c ↔ ∃ b, r a b ∧ Walk r n b c := by
  constructor
  · rintro (_ | ⟨hab, hbc⟩)
    exact ⟨_, hab, hbc⟩
  · rintro ⟨b, hab, hbc⟩
    exact cons hab hbc

theorem append (hab : Walk r m a b) (hbc : Walk r n b c) : Walk r (m + n) a c := by
  induction hab with
  | nil a =>
    rw [Nat.zero_add]
    exact hbc
  | cons hstep _ ih =>
    rw [Nat.succ_add]
    exact cons hstep (ih hbc)

/-- The first steps of a walk. -/
theorem exists_of_le (h : Walk r n a c) (hmn : m ≤ n) :
    ∃ b, Walk r m a b ∧ Walk r (n - m) b c := by
  induction h generalizing m with
  | nil a =>
    obtain rfl := Nat.le_zero.mp hmn
    exact ⟨a, nil a, nil a⟩
  | @cons n a b c hab hbc ih =>
    cases m with
    | zero => exact ⟨a, nil a, cons hab hbc⟩
    | succ m =>
      obtain ⟨d, hbd, hdc⟩ := ih (Nat.le_of_succ_le_succ hmn)
      refine ⟨d, cons hab hbd, ?_⟩
      rw [Nat.succ_sub_succ]
      exact hdc

end Walk

variable {a b c : α} {n : ℕ}

/-- The transitive closure consists of the walks of positive length. -/
theorem transGen_iff_exists_walk : TransGen r a b ↔ ∃ n, Walk r (n + 1) a b := by
  constructor
  · intro h
    induction h using TransGen.head_induction_on with
    | single hab => exact ⟨0, .cons hab (.nil _)⟩
    | head hab _ ih =>
      obtain ⟨n, hwalk⟩ := ih
      exact ⟨n + 1, .cons hab hwalk⟩
  · rintro ⟨n, hwalk⟩
    induction n generalizing a with
    | zero =>
      obtain ⟨c, hac, hcb⟩ := Walk.succ_iff.mp hwalk
      obtain rfl := Walk.zero_iff.mp hcb
      exact .single hac
    | succ n ih =>
      obtain ⟨c, hac, hcb⟩ := Walk.succ_iff.mp hwalk
      exact .head hac (ih hcb)

/-- On a cycle one can walk for as long as one likes. -/
theorem exists_walk_of_transGen_self (h : TransGen r a a) (n : ℕ) : ∃ b, Walk r n a b := by
  obtain ⟨k, hcycle⟩ := transGen_iff_exists_walk.mp h
  have hloop : Walk r ((k + 1) * n) a a := by
    induction n with
    | zero => exact .nil a
    | succ n ih =>
      rw [Nat.mul_succ]
      exact ih.append hcycle
  obtain ⟨b, hab, -⟩ := hloop.exists_of_le (Nat.le_mul_of_pos_left n k.succ_pos)
  exact ⟨b, hab⟩

/-- Where walks of length `n` end in vertices without successors, there are no longer walks. -/
theorem not_walk_of_forall_walk (h : ∀ b, Walk r n a b → ∀ c, ¬ r b c) {m : ℕ} (hm : n < m) :
    ¬ Walk r m a c := by
  intro hwalk
  obtain ⟨b, hab, hbc⟩ := hwalk.exists_of_le hm.le
  obtain ⟨k, hk⟩ : ∃ k, m - n = k + 1 := ⟨m - n - 1, by omega⟩
  rw [hk] at hbc
  obtain ⟨d, hbd, -⟩ := Walk.succ_iff.mp hbc
  exact h b hab d hbd

/-- **Bounded walks exclude cycles.** -/
theorem not_transGen_self_of_forall_walk (h : ∀ b, Walk r n a b → ∀ c, ¬ r b c)
    (hab : ReflTransGen r a b) : ¬ TransGen r b b := by
  intro hcycle
  obtain ⟨c, hbc⟩ := exists_walk_of_transGen_self hcycle (n + 1)
  rcases reflTransGen_iff_eq_or_transGen.mp hab with rfl | hab
  · exact not_walk_of_forall_walk h n.lt_succ_self hbc
  · obtain ⟨k, hwalk⟩ := transGen_iff_exists_walk.mp hab
    exact not_walk_of_forall_walk h (by omega) (hwalk.append hbc)

/-- The vertex reaches a cycle. -/
def ReachesCycle (r : α → α → Prop) (a : α) : Prop :=
  ∃ b, ReflTransGen r a b ∧ TransGen r b b

/-- The vertex reaches a walk with more than `m` steps. -/
def ReachesWalkOver (r : α → α → Prop) (m : ℕ) (a : α) : Prop :=
  ∃ b c n, ReflTransGen r a b ∧ m < n ∧ Walk r n b c

theorem exists_walk_of_reflTransGen (h : ReflTransGen r a b) : ∃ n, Walk r n a b := by
  obtain rfl | h := reflTransGen_iff_eq_or_transGen.mp h
  · exact ⟨0, .nil _⟩
  · obtain ⟨n, hwalk⟩ := transGen_iff_exists_walk.mp h
    exact ⟨n + 1, hwalk⟩

/-- **Cycles and long walks** that a vertex reaches show in the walks from the vertex itself. -/
theorem reachesCycle_or_reachesWalkOver_iff {m : ℕ} :
    ReachesCycle r a ∨ ReachesWalkOver r m a ↔ ∃ c, Walk r (m + 1) a c := by
  -- a walk behind reachable vertices is continued to the front
  have hfront {b c : α} {n : ℕ} (hab : ReflTransGen r a b) (hn : m < n) (hbc : Walk r n b c) :
      ∃ c, Walk r (m + 1) a c := by
    obtain ⟨k, hwalk⟩ := exists_walk_of_reflTransGen hab
    obtain ⟨d, had, -⟩ := (hwalk.append hbc).exists_of_le (m := m + 1) (by omega)
    exact ⟨d, had⟩
  constructor
  · rintro (⟨b, hab, hcycle⟩ | ⟨b, c, n, hab, hn, hbc⟩)
    · obtain ⟨c, hbc⟩ := exists_walk_of_transGen_self hcycle (m + 1)
      exact hfront hab m.lt_succ_self hbc
    · exact hfront hab hn hbc
  · rintro ⟨c, hac⟩
    exact Or.inr ⟨a, c, m + 1, .refl, m.lt_succ_self, hac⟩

end StackableOperator
