import Mathlib

/-!
# Paths through a sorted list

`pathTo key l a c` leads from `a` to `c` through a list that is sorted by a key: the items after
`a` up to `c`, or the items before `a` down to `c`. It is the slice of the list between the two
positions (`pathTo_eq_of_lt`, `pathTo_eq_of_gt`), visits consecutive items (`infix_pathTo`), and
the path to an item goes through all items between (`pathTo_append`).
-/

namespace StackableOperator

variable {α K : Type} [LinearOrder K] {key : α → K} {l : List α} {a b c : α} {i j p q : ℕ}

/-- A slice has the items with a property if no item outside has it. -/
theorem filter_eq_take_drop {P : α → Bool} (hlow : ∀ v ∈ l.take p, P v = false)
    (hmid : ∀ v ∈ (l.drop p).take (q - p), P v = true) (hhigh : ∀ v ∈ l.drop q, P v = false)
    (hpq : p ≤ q) : l.filter P = (l.drop p).take (q - p) := by
  have hdrop : (l.drop p).drop (q - p) = l.drop q := by
    rw [List.drop_drop, Nat.add_sub_cancel' hpq]
  have hfilterLow : (l.take p).filter P = [] := by
    rw [List.filter_eq_nil_iff]
    intro v hv
    simp [hlow v hv]
  have hfilterHigh : (l.drop q).filter P = [] := by
    rw [List.filter_eq_nil_iff]
    intro v hv
    simp [hhigh v hv]
  calc l.filter P = (l.take p ++ ((l.drop p).take (q - p) ++ l.drop q)).filter P := by
        rw [← hdrop, List.take_append_drop, List.take_append_drop]
    _ = ((l.drop p).take (q - p)).filter P := by
        rw [List.filter_append, List.filter_append, hfilterLow, hfilterHigh, List.nil_append,
          List.append_nil]
    _ = (l.drop p).take (q - p) := List.filter_eq_self.mpr hmid

/-- In a sorted list, positions are ordered like keys. -/
theorem key_lt_of_lt (h : (l.map key).Pairwise (· < ·)) (ha : l[i]? = some a)
    (hc : l[j]? = some c) (hij : i < j) : key a < key c := by
  obtain ⟨hi, rfl⟩ := List.getElem?_eq_some_iff.mp ha
  obtain ⟨hj, rfl⟩ := List.getElem?_eq_some_iff.mp hc
  rw [List.pairwise_map] at h
  exact List.pairwise_iff_getElem.mp h i j hi hj hij

theorem key_le_of_le (h : (l.map key).Pairwise (· < ·)) (ha : l[i]? = some a)
    (hc : l[j]? = some c) (hij : i ≤ j) : key a ≤ key c := by
  rcases hij.eq_or_lt with rfl | hij
  · obtain rfl := Option.some.inj (ha.symm.trans hc)
    exact le_rfl
  · exact (key_lt_of_lt h ha hc hij).le

theorem exists_of_mem_take {v : α} (hv : v ∈ l.take p) : ∃ k < p, l[k]? = some v := by
  obtain ⟨k, hk, rfl⟩ := List.mem_take_iff_getElem.mp hv
  exact ⟨k, by omega, List.getElem?_eq_getElem _⟩

theorem exists_of_mem_drop {v : α} (hv : v ∈ l.drop p) : ∃ k, p ≤ k ∧ l[k]? = some v := by
  obtain ⟨k, hk, rfl⟩ := List.mem_drop_iff_getElem.mp hv
  exact ⟨p + k, by omega, List.getElem?_eq_getElem _⟩

/-- The items of a slice, by their keys. -/
theorem exists_of_mem_take_drop {v : α} (hv : v ∈ (l.drop p).take (q - p)) :
    ∃ k, p ≤ k ∧ k < q ∧ l[k]? = some v := by
  obtain ⟨k, hk, hkv⟩ := exists_of_mem_take hv
  rw [List.getElem?_drop] at hkv
  exact ⟨p + k, by omega, by omega, hkv⟩

variable (key) in
/-- The items from `a` (excluding) to `c` (including), upwards or downwards. -/
def pathTo (l : List α) (a c : α) : List α :=
  if key a < key c then l.filter fun v => key a < key v ∧ key v ≤ key c
  else (l.filter fun v => key c ≤ key v ∧ key v < key a).reverse

/-- The path upwards is a slice. -/
theorem pathTo_eq_of_lt (h : (l.map key).Pairwise (· < ·)) (ha : l[i]? = some a)
    (hc : l[j]? = some c) (hij : i < j) :
    pathTo key l a c = (l.drop (i + 1)).take (j - i) := by
  rw [pathTo, if_pos (key_lt_of_lt h ha hc hij)]
  have hslice : j - i = j + 1 - (i + 1) := by omega
  rw [hslice]
  refine filter_eq_take_drop ?_ ?_ ?_ (by omega)
  · intro v hv
    obtain ⟨k, hk, hkv⟩ := exists_of_mem_take hv
    have hle := key_le_of_le h hkv ha (by omega)
    simp [hle.not_gt]
  · intro v hv
    obtain ⟨k, hik, hkj, hkv⟩ := exists_of_mem_take_drop hv
    simp [key_lt_of_lt h ha hkv (by omega), key_le_of_le h hkv hc (by omega)]
  · intro v hv
    obtain ⟨k, hjk, hkv⟩ := exists_of_mem_drop hv
    simp [key_lt_of_lt h hc hkv (by omega)]

/-- The path downwards is a slice in reverse. -/
theorem pathTo_eq_of_gt (h : (l.map key).Pairwise (· < ·)) (ha : l[i]? = some a)
    (hc : l[j]? = some c) (hji : j < i) :
    pathTo key l a c = ((l.drop j).take (i - j)).reverse := by
  rw [pathTo, if_neg (key_lt_of_lt h hc ha hji).asymm, List.reverse_inj]
  refine filter_eq_take_drop ?_ ?_ ?_ hji.le
  · intro v hv
    obtain ⟨k, hk, hkv⟩ := exists_of_mem_take hv
    simp [key_lt_of_lt h hkv hc hk]
  · intro v hv
    obtain ⟨k, hjk, hki, hkv⟩ := exists_of_mem_take_drop hv
    simp [key_lt_of_lt h hkv ha hki, key_le_of_le h hc hkv hjk]
  · intro v hv
    obtain ⟨k, hik, hkv⟩ := exists_of_mem_drop hv
    simp [key_le_of_le h ha hkv hik]

/-- **A path visits consecutive items**, and ends at its target. -/
theorem infix_pathTo (h : (l.map key).Pairwise (· < ·)) (ha : a ∈ l) (hc : c ∈ l)
    (hac : key a ≠ key c) :
    ((a :: pathTo key l a c) <:+: l ∨ (a :: pathTo key l a c).reverse <:+: l) ∧
      (pathTo key l a c).getLast? = some c := by
  obtain ⟨i, hi⟩ := List.mem_iff_getElem?.mp ha
  obtain ⟨j, hj⟩ := List.mem_iff_getElem?.mp hc
  obtain ⟨hilt, hia⟩ := List.getElem?_eq_some_iff.mp hi
  obtain ⟨hjlt, hjc⟩ := List.getElem?_eq_some_iff.mp hj
  have hdropi : l.drop i = a :: l.drop (i + 1) := by
    rw [← hia, List.drop_eq_getElem_cons hilt]
  have hdropj : l.drop j = c :: l.drop (j + 1) := by
    rw [← hjc, List.drop_eq_getElem_cons hjlt]
  rcases lt_trichotomy i j with hij | rfl | hji
  · rw [pathTo_eq_of_lt h hi hj hij]
    refine ⟨Or.inl ?_, ?_⟩
    · have hcons : a :: (l.drop (i + 1)).take (j - i) = (l.drop i).take (j - i + 1) := by
        rw [hdropi, List.take_succ_cons]
      rw [hcons]
      exact (List.take_prefix _ _).isInfix.trans (List.drop_suffix _ _).isInfix
    · rw [List.getLast?_take, List.getElem?_drop, if_neg (by omega)]
      have hlast : i + 1 + (j - i - 1) = j := by omega
      rw [hlast, hj]
      rfl
  · obtain rfl := Option.some.inj (hi.symm.trans hj)
    exact absurd rfl hac
  · rw [pathTo_eq_of_gt h hi hj hji]
    refine ⟨Or.inr ?_, ?_⟩
    · have hsnoc : (a :: ((l.drop j).take (i - j)).reverse).reverse =
          (l.drop j).take (i - j + 1) := by
        have hget : (l.drop j)[i - j]? = some a := by
          rw [List.getElem?_drop, Nat.add_sub_cancel' hji.le, hi]
        rw [List.reverse_cons, List.reverse_reverse, List.take_add_one, hget]
        rfl
      rw [hsnoc]
      exact (List.take_prefix _ _).isInfix.trans (List.drop_suffix _ _).isInfix
    · obtain ⟨n, hn⟩ : ∃ n, i - j = n + 1 := ⟨i - j - 1, by omega⟩
      rw [hdropj, hn, List.take_succ_cons, List.reverse_cons, List.getLast?_concat]

/-- In a sorted list, items with lower keys come before those with higher keys. -/
theorem filter_append_filter (h : (l.map key).Pairwise (· < ·)) {P Q : α → Bool}
    (hPQ : ∀ v w, P v = true → Q w = true → key v < key w) :
    l.filter (fun v => P v || Q v) = l.filter P ++ l.filter Q := by
  induction l with
  | nil => rfl
  | cons a l ih =>
    obtain ⟨hlt, htail⟩ := List.pairwise_cons.mp h
    by_cases hQa : Q a = true
    · have hnone : l.filter P = [] := by
        rw [List.filter_eq_nil_iff]
        intro v hv hPv
        have hav := hlt (key v) (List.mem_map_of_mem hv)
        exact absurd hav (hPQ v a hPv hQa).asymm
      have hPa : P a = false := by
        by_contra hPa
        exact absurd (hPQ a a (by simpa using hPa) hQa) (lt_irrefl _)
      have ih' := ih htail
      rw [hnone, List.nil_append] at ih'
      rw [List.filter_cons_of_pos (by simp [hQa]), List.filter_cons_of_neg (by simp [hPa]),
        List.filter_cons_of_pos hQa, hnone, ih', List.nil_append]
    · rcases hPa : P a with _ | _
      · rw [List.filter_cons_of_neg (by simp [hPa, hQa]), List.filter_cons_of_neg (by simp [hPa]),
          List.filter_cons_of_neg hQa, ih htail]
      · rw [List.filter_cons_of_pos (by simp [hPa]), List.filter_cons_of_pos hPa,
          List.filter_cons_of_neg hQa, ih htail, List.cons_append]

/-- **A path goes through the items between its ends.** -/
theorem pathTo_append (h : (l.map key).Pairwise (· < ·))
    (hb : (key a < key b ∧ key b < key c) ∨ (key c < key b ∧ key b < key a)) :
    pathTo key l a c = pathTo key l a b ++ pathTo key l b c := by
  rcases hb with ⟨hab, hbc⟩ | ⟨hcb, hba⟩
  · rw [pathTo, pathTo, pathTo, if_pos (hab.trans hbc), if_pos hab, if_pos hbc,
      ← filter_append_filter h]
    · refine List.filter_congr fun v _ => ?_
      rcases le_or_gt (key v) (key b) with hv | hv
      · simp [hv, hv.not_gt, hv.trans hbc.le]
      · simp [hv, hv.not_ge, hab.trans hv]
    · intro v w hv hw
      simp only [Bool.decide_and, Bool.and_eq_true, decide_eq_true_eq] at hv hw
      exact hv.2.trans_lt hw.1
  · rw [pathTo, pathTo, pathTo, if_neg (hcb.trans hba).asymm, if_neg hba.asymm, if_neg hcb.asymm,
      ← List.reverse_append, List.reverse_inj, ← filter_append_filter h]
    · refine List.filter_congr fun v _ => ?_
      rcases lt_or_ge (key v) (key b) with hv | hv
      · simp [hv, hv.not_ge, hv.trans hba]
      · simp [hv, hv.not_gt, hcb.le.trans hv]
    · intro v w hv hw
      simp only [Bool.decide_and, Bool.and_eq_true, decide_eq_true_eq] at hv hw
      exact hv.2.trans_le hw.1

end StackableOperator
