import Mathlib

/-!
# Maximal munch

`munch joins` cuts a text into lexemes from left to right: a lexeme goes on as long as the next
character joins it. A lexeme at the front is found if the character behind it does not join it
(`munch_append`), and a character that never joins anything separates (`munch_append_cons`).
-/

namespace StackableOperator

variable {α : Type*} (joins : List α → α → Bool)

/-- The lexemes of a text behind the beginning of a lexeme. -/
def munchFrom (lexeme : List α) : List α → List (List α)
  | [] => [lexeme]
  | c :: cs =>
    if joins lexeme c then munchFrom (lexeme ++ [c]) cs else lexeme :: munchFrom [c] cs

/-- The lexemes of a text. -/
def munch : List α → List (List α)
  | [] => []
  | c :: cs => munchFrom joins [c] cs

/-- Every character joins the ones in front of it. -/
def IsLexeme (w : List α) : Prop := ∀ u c v, w = u ++ c :: v → u ≠ [] → joins u c = true

/-- A character that is a lexeme on its own, whatever stands beside it. -/
structure IsSeparator (c : α) : Prop where
  left : ∀ w, joins w c = false
  right : ∀ d, joins [c] d = false

variable {joins}

theorem munchFrom_eq_cons {w : List α} {cs : List α} (h : ∀ c ∈ cs.head?, joins w c = false) :
    munchFrom joins w cs = w :: munch joins cs := by
  match cs with
  | [] => rfl
  | c :: cs =>
    have hc : ¬ joins w c = true := by simp [h c rfl]
    exact if_neg hc

theorem munchFrom_append {u w rest : List α} (hne : u ≠ []) (hw : IsLexeme joins (u ++ w))
    (hrest : ∀ c ∈ rest.head?, joins (u ++ w) c = false) :
    munchFrom joins u (w ++ rest) = (u ++ w) :: munch joins rest := by
  induction w generalizing u with
  | nil =>
    rw [List.append_nil] at hrest ⊢
    exact munchFrom_eq_cons hrest
  | cons c w ih =>
    have hassoc : u ++ c :: w = (u ++ [c]) ++ w := (List.append_cons u c w)
    rw [hassoc] at hrest ⊢
    have hc : joins u c = true := hw u c w rfl hne
    rw [List.cons_append, munchFrom, if_pos hc]
    exact ih (by simp) (hassoc ▸ hw) hrest

/-- **A lexeme at the front of a text.** -/
theorem munch_append {w rest : List α} (hne : w ≠ []) (hw : IsLexeme joins w)
    (hrest : ∀ c ∈ rest.head?, joins w c = false) :
    munch joins (w ++ rest) = w :: munch joins rest := by
  obtain ⟨c, w, rfl⟩ := List.exists_cons_of_ne_nil hne
  exact munchFrom_append (u := [c]) (List.cons_ne_nil c []) hw hrest

theorem munch_cons_of_isSeparator {s : α} (hs : IsSeparator joins s) (cs : List α) :
    munch joins (s :: cs) = [s] :: munch joins cs :=
  munchFrom_eq_cons fun d _ => hs.right d

theorem munchFrom_append_cons {s : α} (hs : IsSeparator joins s) (w xs ys : List α) :
    munchFrom joins w (xs ++ s :: ys) = munchFrom joins w xs ++ [s] :: munch joins ys := by
  induction xs generalizing w with
  | nil =>
    have hleft : ∀ c ∈ (s :: ys).head?, joins w c = false := by
      rintro c ⟨⟩
      exact hs.left w
    rw [List.nil_append, munchFrom_eq_cons hleft, munch_cons_of_isSeparator hs]
    rfl
  | cons c xs ih =>
    rw [List.cons_append, munchFrom, munchFrom, ih, ih]
    split <;> rfl

/-- **Both sides of a separator** are cut on their own. -/
theorem munch_append_cons {s : α} (hs : IsSeparator joins s) (xs ys : List α) :
    munch joins (xs ++ s :: ys) = munch joins xs ++ [s] :: munch joins ys := by
  match xs with
  | [] => exact munch_cons_of_isSeparator hs ys
  | c :: xs => exact munchFrom_append_cons hs [c] xs ys

end StackableOperator
