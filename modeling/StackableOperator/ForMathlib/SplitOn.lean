import Mathlib

/-!
# Splitting at separators

Facts about `List.splitOn` and `List.intercalate`, and the functions `splitOnce` and
`List.isPrefixOf?` that split off one piece. `map_length_splitOn_intercalate` counts the pieces of
a list that was put together from pieces which may contain the separator themselves.
-/

namespace StackableOperator

variable {α : Type*}

/-! ### Joining -/

/-- The elements of pieces that are put together with a separator. -/
theorem mem_intercalate {sep : List α} {pieces : List (List α)} {c : α}
    (h : c ∈ sep.intercalate pieces) : c ∈ sep ∨ ∃ piece ∈ pieces, c ∈ piece := by
  induction pieces with
  | nil => exact absurd h (by simp)
  | cons piece pieces ih =>
    match pieces with
    | [] => exact Or.inr ⟨piece, by simp, by simpa using h⟩
    | next :: rest =>
      rw [List.intercalate_cons_cons, List.mem_append, List.mem_append] at h
      obtain (h | h) | h := h
      · exact Or.inr ⟨piece, by simp, h⟩
      · exact Or.inl h
      · obtain hsep | ⟨other, hother, hmem⟩ := ih h
        · exact Or.inl hsep
        · exact Or.inr ⟨other, List.mem_cons_of_mem piece hother, hmem⟩

/-- What stands at the front of the first piece stands at the front of everything. -/
theorem intercalate_append_cons (sep x y : List α) (pieces : List (List α)) :
    sep.intercalate ((x ++ y) :: pieces) = x ++ sep.intercalate (y :: pieces) := by
  match pieces with
  | [] => simp
  | piece :: pieces => simp [List.intercalate_cons_cons]

theorem getLast?_cons_concat (a : α) (v : List α) (b : α) :
    (a :: (v ++ [b])).getLast? = some b := by
  rw [← List.cons_append, List.getLast?_concat]

/-! ### Splitting -/

variable [DecidableEq α] {a : α}

theorem splitOn_append_of_notMem {s t : List α} (h : a ∉ s) :
    (s ++ t).splitOn a = (t.splitOn a).modifyHead (s ++ ·) := by
  induction s with
  | nil =>
    have hid : (fun x : List α => [] ++ x) = id := rfl
    rw [hid, List.modifyHead_id, List.nil_append]
    rfl
  | cons c s ih =>
    rw [List.mem_cons, not_or] at h
    obtain ⟨hc, hs⟩ := h
    rw [List.cons_append, List.splitOn_cons_eq_if_modifyHead, ih hs, List.modifyHead_modifyHead]
    rw [if_neg (by simpa using Ne.symm hc)]
    rfl

/-- What is appended without a separator goes to the last piece. -/
theorem exists_splitOn_append (s : List α) :
    ∃ front last, s.splitOn a = front ++ [last] ∧
      ∀ t, a ∉ t → (s ++ t).splitOn a = front ++ [last ++ t] := by
  induction s with
  | nil =>
    refine ⟨[], [], by simp, fun t ht => ?_⟩
    simpa using splitOn_append_of_notMem (t := []) ht
  | cons c s ih =>
    obtain ⟨front, last, hs, happend⟩ := ih
    have hcons (l : List α) : (c :: l).splitOn a =
        if c = a then [] :: l.splitOn a else (l.splitOn a).modifyHead (List.cons c) := by
      simp [List.splitOn_cons_eq_if_modifyHead]
    by_cases hc : c = a
    · refine ⟨[] :: front, last, ?_, fun t ht => ?_⟩
      · rw [hcons, if_pos hc, hs]
        rfl
      · rw [List.cons_append, hcons, if_pos hc, happend t ht]
        rfl
    · -- the character joins the first piece, which may be the last one
      match front, hs, happend with
      | [], hs, happend =>
        refine ⟨[], c :: last, ?_, fun t ht => ?_⟩
        · rw [hcons, if_neg hc, hs]
          rfl
        · rw [List.cons_append, hcons, if_neg hc, happend t ht]
          rfl
      | piece :: front, hs, happend =>
        refine ⟨(c :: piece) :: front, last, ?_, fun t ht => ?_⟩
        · rw [hcons, if_neg hc, hs]
          rfl
        · rw [List.cons_append, hcons, if_neg hc, happend t ht]
          rfl

/-- The last of several pieces stands behind a separator. -/
theorem eq_append_of_splitOn_eq_concat {s : List α} {front : List (List α)} {last : List α}
    (h : s.splitOn a = front ++ [last]) (hne : front ≠ []) :
    ∃ t, s = t ++ a :: last ∧ t.splitOn a = front := by
  induction s generalizing front with
  | nil =>
    obtain ⟨piece, front, rfl⟩ := List.exists_cons_of_ne_nil hne
    rw [List.splitOn_nil] at h
    exact absurd (List.cons.inj h).2 (by simp)
  | cons c s ih =>
    obtain ⟨piece, front, rfl⟩ := List.exists_cons_of_ne_nil hne
    rw [List.splitOn_cons_eq_if_modifyHead] at h
    by_cases hc : c = a
    · subst hc
      rw [if_pos (by simp)] at h
      obtain ⟨rfl, hs⟩ := List.cons.inj h
      match front with
      | [] =>
        -- there is no other separator
        refine ⟨[], ?_, List.splitOn_nil c⟩
        have hjoin : [c].intercalate (s.splitOn c) = s := List.intercalate_splitOn c
        rw [hs] at hjoin
        rw [← hjoin]
        simp
      | next :: front =>
        obtain ⟨t, rfl, ht⟩ := ih hs (List.cons_ne_nil next front)
        refine ⟨c :: t, rfl, ?_⟩
        rw [List.splitOn_cons_eq_if_modifyHead, if_pos (by simp), ht]
    · rw [if_neg (by simpa using hc)] at h
      obtain ⟨piece', pieces, hs⟩ := List.exists_cons_of_ne_nil (List.splitOn_ne_nil a s)
      rw [hs] at h
      obtain ⟨rfl, hrest⟩ := List.cons.inj h
      have hpieces : s.splitOn a = (piece' :: front) ++ [last] := hs.trans (congrArg _ hrest)
      obtain ⟨t, rfl, ht⟩ := ih hpieces (List.cons_ne_nil piece' front)
      refine ⟨c :: t, rfl, ?_⟩
      rw [List.splitOn_cons_eq_if_modifyHead, if_neg (by simpa using hc), ht]
      rfl

/-- A text consists of its pieces and the separators. -/
theorem eq_or_exists_mem_splitOn {s : List α} {c : α} (h : c ∈ s) :
    c = a ∨ ∃ piece ∈ s.splitOn a, c ∈ piece := by
  have hjoin : [a].intercalate (s.splitOn a) = s := List.intercalate_splitOn a
  rw [← hjoin] at h
  exact (mem_intercalate h).imp_left List.mem_singleton.mp

/-- Every piece contributes its own pieces. -/
theorem length_splitOn_intercalate {pieces : List (List α)} (hne : pieces ≠ []) :
    (([a].intercalate pieces).splitOn a).length =
      (pieces.map fun piece => (piece.splitOn a).length).sum := by
  induction pieces with
  | nil => exact absurd rfl hne
  | cons piece pieces ih =>
    match pieces with
    | [] => simp
    | next :: rest =>
      have hrest := ih (List.cons_ne_nil next rest)
      rw [List.intercalate_cons_cons, List.append_assoc, List.singleton_append,
        List.splitOn_append_cons_self, List.length_append, hrest]
      rfl

theorem one_lt_length_splitOn {piece : List α} (h : a ∈ piece) :
    1 < (piece.splitOn a).length := by
  obtain ⟨u, v, rfl⟩ := List.append_of_mem h
  have hu := List.length_pos_of_ne_nil (List.splitOn_ne_nil a u)
  have hv := List.length_pos_of_ne_nil (List.splitOn_ne_nil a v)
  rw [List.splitOn_append_cons_self, List.length_append]
  omega

/-- A separator inside of a piece makes more pieces than there were. -/
theorem length_lt_length_splitOn_intercalate {pieces : List (List α)} {piece : List α}
    (hpiece : piece ∈ pieces) (h : a ∈ piece) :
    pieces.length < (([a].intercalate pieces).splitOn a).length := by
  have hpos : ∀ p ∈ pieces, 1 ≤ (p.splitOn a).length := fun p _ =>
    List.length_pos_of_ne_nil (List.splitOn_ne_nil a p)
  have hsum : (pieces.map fun _ => 1).sum < (pieces.map fun p => (p.splitOn a).length).sum :=
    List.sum_lt_sum _ _ hpos ⟨piece, hpiece, one_lt_length_splitOn h⟩
  rw [length_splitOn_intercalate (List.ne_nil_of_mem hpiece)]
  simpa using hsum

/-- `str::split_once` -/
def splitOnce (separator : α) (s : List α) : Option (List α × List α) :=
  match s.dropWhile (· ≠ separator) with
  | [] => none
  | _ :: rest => some (s.takeWhile (· ≠ separator), rest)

theorem splitOnce_append {s t : List α} (h : a ∉ s) :
    splitOnce a (s ++ a :: t) = some (s, t) := by
  have hpos : ∀ c ∈ s, decide (c ≠ a) = true := by
    intro c hc
    exact decide_eq_true fun heq => h (heq ▸ hc)
  rw [splitOnce, List.dropWhile_append_of_pos hpos, List.dropWhile_cons_of_neg (by simp),
    List.takeWhile_append_of_pos hpos, List.takeWhile_cons_of_neg (by simp), List.append_nil]

theorem splitOnce_eq_none {s : List α} (h : a ∉ s) : splitOnce a s = none := by
  have hpos : ∀ c ∈ s, decide (c ≠ a) = true := by
    intro c hc
    exact decide_eq_true fun heq => h (heq ▸ hc)
  rw [splitOnce, List.dropWhile_eq_nil_iff.mpr hpos]

theorem isPrefixOf?_append (s t : List α) : s.isPrefixOf? (s ++ t) = some t := by
  induction s with
  | nil => rfl
  | cons c s ih => simp [List.isPrefixOf?, ih]

end StackableOperator
