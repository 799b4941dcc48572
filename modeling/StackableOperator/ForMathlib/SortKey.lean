import Mathlib

/-!
# Sorting by keys that are sets

Sets are compared here by listing their elements in descending order and comparing these lists
lexicographically. This order extends strict inclusion (`descending_lt_of_ssubset`), so that
sorting by such keys puts every item after the items whose key is a proper subset of its own. In
general the greatest element in which two sets differ decides
(`lt_iff_exists_greatest_difference`).

`sortByCachedKey` is a stable sort by a key. In its result an item with a smaller key comes
before one with a greater key (`pair_sublist_sortByCachedKey_iff`).
-/

namespace StackableOperator

/-- A set that iterates in the order of its elements. -/
abbrev BTreeSet (K : Type) [LinearOrder K] : Type := Std.ExtTreeSet K compare

variable {K : Type} [LinearOrder K]

namespace BTreeSet

theorem mem_insert_iff {s : BTreeSet K} {a b : K} : a ∈ s.insert b ↔ a = b ∨ a ∈ s := by
  rw [Std.ExtTreeSet.mem_insert, compare_eq_iff_eq, eq_comm]

theorem transCmp_compare (K : Type) [LinearOrder K] :
    Std.TransCmp (compare : K → K → Ordering) := inferInstance

/-- The elements from the greatest to the smallest one. -/
def descending (s : BTreeSet K) : List K :=
  (@Std.ExtTreeSet.toList K compare (transCmp_compare K) s).reverse

theorem mem_descending {s : BTreeSet K} {a : K} : a ∈ s.descending ↔ a ∈ s := by
  rw [descending, List.mem_reverse]
  exact Std.ExtTreeSet.mem_toList

theorem pairwise_descending (s : BTreeSet K) : s.descending.Pairwise (· > ·) := by
  rw [descending, List.pairwise_reverse]
  exact Std.ExtTreeSet.ordered_toList.imp fun {a b} h => compare_lt_iff_lt.mp h

end BTreeSet

/-! ### Comparing descending lists -/

/-- In a descending list, the elements of the tail are below the head. -/
private theorem mem_tail_of_pairwise {a b : K} {l : List K} (hl : (b :: l).Pairwise (· > ·))
    (ha : a ∈ b :: l) (hne : a ≠ b) : a ∈ l ∧ a < b := by
  have htail : a ∈ l := (List.mem_cons.mp ha).resolve_left hne
  exact ⟨htail, (List.pairwise_cons.mp hl).1 a htail⟩

/-- **Inclusion is strictly monotone**: a proper subset is listed before. -/
theorem lt_of_ssubset {l₁ l₂ : List K} (h₁ : l₁.Pairwise (· > ·)) (h₂ : l₂.Pairwise (· > ·))
    (hsub : l₁ ⊆ l₂) (hne : ¬ l₂ ⊆ l₁) : l₁ < l₂ := by
  induction l₁ generalizing l₂ with
  | nil =>
    cases l₂ with
    | nil => exact absurd (List.Subset.refl _) hne
    | cons b l₂ => exact List.nil_lt_cons b l₂
  | cons a l₁ ih =>
    cases l₂ with
    | nil => exact absurd (hsub List.mem_cons_self) List.not_mem_nil
    | cons b l₂ =>
      rw [List.cons_lt_cons_iff]
      by_cases hab : a = b
      · subst hab
        refine Or.inr ⟨rfl, ih (List.pairwise_cons.mp h₁).2 (List.pairwise_cons.mp h₂).2 ?_ ?_⟩
        · intro x hx
          have hxa : x < a := (List.pairwise_cons.mp h₁).1 x hx
          exact (mem_tail_of_pairwise h₂ (hsub (List.mem_cons_of_mem _ hx)) hxa.ne).1
        · intro hback
          exact hne (List.cons_subset_cons a hback)
      · exact Or.inl (mem_tail_of_pairwise h₂ (hsub List.mem_cons_self) hab).2

/-- **Strict inclusion**: the key of a proper subset is smaller. -/
theorem BTreeSet.descending_lt_of_ssubset {s t : BTreeSet K} (hsub : ∀ x ∈ s, x ∈ t) {a : K}
    (hat : a ∈ t) (has : a ∉ s) : s.descending < t.descending := by
  refine lt_of_ssubset s.pairwise_descending t.pairwise_descending ?_ ?_
  · intro x hx
    exact mem_descending.mpr (hsub x (mem_descending.mp hx))
  · intro hback
    exact has (mem_descending.mp (hback (mem_descending.mpr hat)))

/-- A nonempty set is listed before a single element iff it is below it. -/
theorem BTreeSet.descending_lt_singleton_iff {s : BTreeSet K} {a : K} (has : a ∉ s) :
    s.descending < [a] ↔ ∀ x ∈ s, x < a := by
  have hmem (x : K) : x ∈ s ↔ x ∈ s.descending := mem_descending.symm
  have hpairwise : s.descending.Pairwise (· > ·) := s.pairwise_descending
  simp only [hmem] at has ⊢
  cases hs : s.descending with
  | nil => simp [List.nil_lt_cons]
  | cons b l =>
    rw [hs] at has hpairwise
    have hne : b ≠ a := fun h => has (h ▸ List.mem_cons_self)
    rw [List.cons_lt_cons_iff]
    constructor
    · rintro (hb | ⟨rfl, -⟩) x hx
      · rcases List.mem_cons.mp hx with rfl | hx
        · exact hb
        · exact ((List.pairwise_cons.mp hpairwise).1 x hx).trans hb
      · exact absurd rfl hne
    · intro h
      exact Or.inl (h b List.mem_cons_self)

private theorem exists_of_lt {l₁ l₂ : List K} (h₁ : l₁.Pairwise (· > ·))
    (h₂ : l₂.Pairwise (· > ·)) (hlt : l₁ < l₂) :
    ∃ x ∈ l₂, x ∉ l₁ ∧ ∀ y, x < y → (y ∈ l₁ ↔ y ∈ l₂) := by
  -- above the head of a descending list there is nothing
  have hhead : ∀ {a y : K} {l : List K}, (a :: l).Pairwise (· > ·) → a < y → y ∉ a :: l := by
    intro a y l hl hay hmem
    obtain rfl | hmem := List.mem_cons.mp hmem
    · exact lt_irrefl _ hay
    · exact lt_asymm hay ((List.pairwise_cons.mp hl).1 y hmem)
  induction l₁ generalizing l₂ with
  | nil =>
    cases l₂ with
    | nil => exact absurd hlt (lt_irrefl _)
    | cons b l₂ =>
      exact ⟨b, List.mem_cons_self, List.not_mem_nil,
        fun y hy => iff_of_false List.not_mem_nil (hhead h₂ hy)⟩
  | cons a l₁ ih =>
    cases l₂ with
    | nil => exact absurd hlt (List.not_lt_nil _)
    | cons b l₂ =>
      obtain hab | ⟨rfl, htail⟩ := List.cons_lt_cons_iff.mp hlt
      · exact ⟨b, List.mem_cons_self, hhead h₁ hab,
          fun y hy => iff_of_false (hhead h₁ (hab.trans hy)) (hhead h₂ hy)⟩
      · obtain ⟨x, hx, hnot, hsame⟩ :=
          ih (List.pairwise_cons.mp h₁).2 (List.pairwise_cons.mp h₂).2 htail
        refine ⟨x, List.mem_cons_of_mem _ hx, ?_, fun y hy => ?_⟩
        · rw [List.mem_cons, not_or]
          exact ⟨((List.pairwise_cons.mp h₂).1 x hx).ne, hnot⟩
        · rw [List.mem_cons, List.mem_cons, hsame y hy]

/-- **The greatest difference decides**: one descending list is before another one iff the greatest
element in which they differ belongs to the latter. -/
theorem lt_iff_exists_greatest_difference {l₁ l₂ : List K} (h₁ : l₁.Pairwise (· > ·))
    (h₂ : l₂.Pairwise (· > ·)) :
    l₁ < l₂ ↔ ∃ x ∈ l₂, x ∉ l₁ ∧ ∀ y, x < y → (y ∈ l₁ ↔ y ∈ l₂) := by
  refine ⟨exists_of_lt h₁ h₂, ?_⟩
  rintro ⟨x, hx, hnot, hsame⟩
  obtain hlt | rfl | hgt := lt_trichotomy l₁ l₂
  · exact hlt
  · exact absurd hx hnot
  · obtain ⟨x', hx', hnot', hsame'⟩ := exists_of_lt h₂ h₁ hgt
    obtain hlt | rfl | hgt := lt_trichotomy x x'
    · exact absurd ((hsame x' hlt).mp hx') hnot'
    · exact absurd hx' hnot
    · exact absurd ((hsame' x hgt).mp hx) hnot

/-! ### Sorting by a key -/

section Sorting

variable {α : Type*} {key : α → K} {l : List α} {a b : α}

/-- Sort stably by a key that is computed once for every item. -/
def sortByCachedKey (key : α → K) (l : List α) : List α :=
  l.insertionSort fun a b => key a ≤ key b

theorem perm_sortByCachedKey (key : α → K) (l : List α) : (sortByCachedKey key l).Perm l :=
  List.perm_insertionSort _ l

theorem pairwise_sortByCachedKey (key : α → K) (l : List α) :
    (sortByCachedKey key l).Pairwise fun a b => key a ≤ key b := by
  have htotal : Std.Total fun a b : α => key a ≤ key b := ⟨fun a b => le_total (key a) (key b)⟩
  have htrans : IsTrans α fun a b : α => key a ≤ key b := ⟨fun a b c hab hbc => hab.trans hbc⟩
  exact List.pairwise_insertionSort _ l

/-- Of two different items of a list, one comes before the other. -/
theorem pair_sublist_or (ha : a ∈ l) (hb : b ∈ l) (hab : a ≠ b) :
    [a, b].Sublist l ∨ [b, a].Sublist l := by
  induction l with
  | nil => exact absurd ha List.not_mem_nil
  | cons x l ih =>
    rcases List.mem_cons.mp ha with rfl | hal
    · have hbl : b ∈ l := (List.mem_cons.mp hb).resolve_left hab.symm
      exact Or.inl ((List.singleton_sublist.mpr hbl).cons_cons a)
    · rcases List.mem_cons.mp hb with rfl | hbl
      · exact Or.inr ((List.singleton_sublist.mpr hal).cons_cons b)
      · rcases ih hal hbl with h | h
        · exact Or.inl (h.cons x)
        · exact Or.inr (h.cons x)

/-- **Sorting puts smaller keys first.** -/
theorem pair_sublist_sortByCachedKey_iff (ha : a ∈ l) (hb : b ∈ l) (hab : key a ≠ key b) :
    [a, b].Sublist (sortByCachedKey key l) ↔ key a < key b := by
  have hsorted := pairwise_sortByCachedKey key l
  have hmem {x : α} (hx : x ∈ l) : x ∈ sortByCachedKey key l :=
    (perm_sortByCachedKey key l).mem_iff.mpr hx
  constructor
  · intro h
    exact lt_of_le_of_ne (List.pairwise_iff_forall_sublist.mp hsorted h) hab
  · intro h
    have hne : a ≠ b := fun heq => hab (congrArg key heq)
    refine (pair_sublist_or (hmem ha) (hmem hb) hne).resolve_right fun hback => ?_
    exact absurd (List.pairwise_iff_forall_sublist.mp hsorted hback) h.not_ge

end Sorting

end StackableOperator
