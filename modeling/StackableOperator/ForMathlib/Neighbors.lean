import Mathlib
import StackableOperator.ForMathlib.IterMap

/-!
# Neighbours in a tree map

The last entry below a key and the first entry above it. Both are characterised by lookups, so
that only the entries on their side of the key count (`loBound_congr`, `upBound_congr`). Two items
are consecutive in a list `l` if `[a, b] <:+: l`.
-/

namespace StackableOperator

/-! ### The ends of a sorted list -/

section Sorted

variable {K V : Type} [LinearOrder K] {l : List (K × V)} {e : K × V}

theorem getLast?_eq_some_iff_of_sorted (h : (l.map Prod.fst).Pairwise (· < ·)) :
    l.getLast? = some e ↔ e ∈ l ∧ ∀ x ∈ l, x.1 ≤ e.1 := by
  rw [List.pairwise_map] at h
  constructor
  · intro hlast
    obtain ⟨t, rfl⟩ := List.getLast?_eq_some_iff.mp hlast
    refine ⟨by simp, ?_⟩
    intro x hx
    rcases List.mem_append.mp hx with hx | hx
    · exact ((List.pairwise_append.mp h).2.2 x hx e (by simp)).le
    · rw [List.mem_singleton.mp hx]
  · rintro ⟨he, hmax⟩
    obtain ⟨t, x, rfl⟩ : ∃ t x, l = t ++ [x] :=
      ⟨l.dropLast, l.getLast (List.ne_nil_of_mem he),
        (List.dropLast_append_getLast (List.ne_nil_of_mem he)).symm⟩
    rw [List.getLast?_concat, Option.some_inj]
    rcases List.mem_append.mp he with ht | hx
    · have hlt : e.1 < x.1 := (List.pairwise_append.mp h).2.2 e ht x (by simp)
      exact absurd hlt (not_lt.mpr (hmax x (by simp)))
    · rw [List.mem_singleton.mp hx]

theorem head?_eq_some_iff_of_sorted (h : (l.map Prod.fst).Pairwise (· < ·)) :
    l.head? = some e ↔ e ∈ l ∧ ∀ x ∈ l, e.1 ≤ x.1 := by
  rw [List.pairwise_map] at h
  rcases l with _ | ⟨y, t⟩
  · simp
  · rw [List.head?_cons, Option.some_inj]
    obtain ⟨hy, -⟩ := List.pairwise_cons.mp h
    constructor
    · rintro rfl
      refine ⟨by simp, ?_⟩
      intro x hx
      rcases List.mem_cons.mp hx with rfl | hx
      · exact le_rfl
      · exact (hy x hx).le
    · rintro ⟨he, hmin⟩
      rcases List.mem_cons.mp he with rfl | ht
      · rfl
      · exact absurd (hy e ht) (not_lt.mpr (hmin y (by simp)))

end Sorted

/-! ### Consecutive items of a sorted list -/

section Consecutive

variable {α K : Type} [LinearOrder K] {f : α → K} {l : List α} {a b c : α}

theorem mem_of_infix_pair (hab : [a, b] <:+: l) : a ∈ l ∧ b ∈ l :=
  ⟨hab.subset (by simp), hab.subset (by simp)⟩

theorem lt_of_pair_infix (h : (l.map f).Pairwise (· < ·)) (hab : [a, b] <:+: l) : f a < f b := by
  rw [List.pairwise_map] at h
  have hpair := h.sublist hab.sublist
  exact (List.pairwise_cons.mp hpair).1 b (by simp)

/-- No item lies between two consecutive ones. -/
theorem le_of_pair_infix_of_lt (h : (l.map f).Pairwise (· < ·)) (hab : [a, b] <:+: l)
    (hc : c ∈ l) (hac : f a < f c) : f b ≤ f c := by
  rw [List.pairwise_map] at h
  obtain ⟨s, t, rfl⟩ := hab
  simp only [List.append_assoc, List.cons_append, List.nil_append, List.mem_append,
    List.mem_cons] at h hc
  obtain ⟨-, htail, hs⟩ := List.pairwise_append.mp h
  rcases hc with hc | rfl | rfl | hc
  · exact absurd hac (hs c hc a (by simp)).asymm
  · exact absurd hac (lt_irrefl _)
  · exact le_rfl
  · exact ((List.pairwise_cons.mp (List.pairwise_cons.mp htail).2).1 c hc).le

end Consecutive

/-! ### The neighbours of a key -/

namespace BTreeMap

open IterMap (get?)

variable {K : Type} [LinearOrder K] {V : Type}

/-- The last entry below a key. -/
def loBound (m : BTreeMap K V) (k : K) : Option (K × V) :=
  ((IterMap.iter (M := BTreeMap K) m).filter fun e => e.1 < k).getLast?

/-- The first entry above a key. -/
def upBound (m : BTreeMap K V) (k : K) : Option (K × V) :=
  ((IterMap.iter (M := BTreeMap K) m).filter fun e => k < e.1).head?

variable {m m' : BTreeMap K V} {k : K} {e : K × V}

theorem sorted_filter_iter (m : BTreeMap K V) (p : K × V → Bool) :
    (((IterMap.iter (M := BTreeMap K) m).filter p).map Prod.fst).Pairwise (· < ·) := by
  have h := BTreeMap.sorted_iter m
  rw [List.pairwise_map] at h ⊢
  exact h.filter p

theorem loBound_eq_some_iff :
    loBound m k = some e ↔ get? (M := BTreeMap K) m e.1 = some e.2 ∧ e.1 < k ∧
      ∀ k' v, k' < k → get? (M := BTreeMap K) m k' = some v → k' ≤ e.1 := by
  rw [loBound, getLast?_eq_some_iff_of_sorted (sorted_filter_iter m _), List.mem_filter,
    ← IterMap.mem_iter, decide_eq_true_iff, and_assoc]
  refine and_congr_right fun _ => and_congr_right fun _ => ⟨?_, ?_⟩
  · intro h k' v hk' hv
    exact h (k', v) (List.mem_filter.mpr ⟨(IterMap.mem_iter m k' v).mpr hv, by simpa using hk'⟩)
  · intro h x hx
    obtain ⟨hmem, hlt⟩ := List.mem_filter.mp hx
    exact h x.1 x.2 (by simpa using hlt) ((IterMap.mem_iter m x.1 x.2).mp hmem)

theorem upBound_eq_some_iff :
    upBound m k = some e ↔ get? (M := BTreeMap K) m e.1 = some e.2 ∧ k < e.1 ∧
      ∀ k' v, k < k' → get? (M := BTreeMap K) m k' = some v → e.1 ≤ k' := by
  rw [upBound, head?_eq_some_iff_of_sorted (sorted_filter_iter m _), List.mem_filter,
    ← IterMap.mem_iter, decide_eq_true_iff, and_assoc]
  refine and_congr_right fun _ => and_congr_right fun _ => ⟨?_, ?_⟩
  · intro h k' v hk' hv
    exact h (k', v) (List.mem_filter.mpr ⟨(IterMap.mem_iter m k' v).mpr hv, by simpa using hk'⟩)
  · intro h x hx
    obtain ⟨hmem, hlt⟩ := List.mem_filter.mp hx
    exact h x.1 x.2 (by simpa using hlt) ((IterMap.mem_iter m x.1 x.2).mp hmem)

theorem loBound_eq_none_iff :
    loBound m k = none ↔ ∀ k' < k, get? (M := BTreeMap K) m k' = none := by
  rw [loBound, List.getLast?_eq_none_iff, List.filter_eq_nil_iff]
  constructor
  · intro h k' hk'
    rcases hv : get? (M := BTreeMap K) m k' with _ | v
    · rfl
    · exact absurd (by simpa using hk') (h (k', v) ((IterMap.mem_iter m k' v).mpr hv))
  · intro h x hx hlt
    have hsome := (IterMap.mem_iter m x.1 x.2).mp hx
    exact absurd (hsome.symm.trans (h x.1 (by simpa using hlt))) (by simp)

theorem upBound_eq_none_iff :
    upBound m k = none ↔ ∀ k', k < k' → get? (M := BTreeMap K) m k' = none := by
  rw [upBound, List.head?_eq_none_iff, List.filter_eq_nil_iff]
  constructor
  · intro h k' hk'
    rcases hv : get? (M := BTreeMap K) m k' with _ | v
    · rfl
    · exact absurd (by simpa using hk') (h (k', v) ((IterMap.mem_iter m k' v).mpr hv))
  · intro h x hx hlt
    have hsome := (IterMap.mem_iter m x.1 x.2).mp hx
    exact absurd (hsome.symm.trans (h x.1 (by simpa using hlt))) (by simp)

/-- Only the entries below the key count. -/
theorem loBound_congr
    (h : ∀ k' < k, get? (M := BTreeMap K) m k' = get? (M := BTreeMap K) m' k') :
    loBound m k = loBound m' k := by
  refine Option.ext fun e => ?_
  rw [loBound_eq_some_iff, loBound_eq_some_iff]
  constructor
  · rintro ⟨he, hlt, hmax⟩
    exact ⟨(h _ hlt).symm.trans he, hlt, fun k' v hk' hv => hmax k' v hk' ((h _ hk').trans hv)⟩
  · rintro ⟨he, hlt, hmax⟩
    exact ⟨(h _ hlt).trans he, hlt,
      fun k' v hk' hv => hmax k' v hk' ((h _ hk').symm.trans hv)⟩

/-- Only the entries above the key count. -/
theorem upBound_congr
    (h : ∀ k', k < k' → get? (M := BTreeMap K) m k' = get? (M := BTreeMap K) m' k') :
    upBound m k = upBound m' k := by
  refine Option.ext fun e => ?_
  rw [upBound_eq_some_iff, upBound_eq_some_iff]
  constructor
  · rintro ⟨he, hlt, hmin⟩
    exact ⟨(h _ hlt).symm.trans he, hlt, fun k' v hk' hv => hmin k' v hk' ((h _ hk').trans hv)⟩
  · rintro ⟨he, hlt, hmin⟩
    exact ⟨(h _ hlt).trans he, hlt,
      fun k' v hk' hv => hmin k' v hk' ((h _ hk').symm.trans hv)⟩

/-- Two keys with no entry from the one to the other have the same entry below. -/
theorem loBound_eq_of_gap {v w : K} (hvw : v ≤ w)
    (hgap : ∀ k, v ≤ k → k < w → get? (M := BTreeMap K) m k = none) :
    loBound m w = loBound m v := by
  refine Option.ext fun e => ?_
  rw [loBound_eq_some_iff, loBound_eq_some_iff]
  constructor
  · rintro ⟨he, hlt, hmax⟩
    have hev : e.1 < v := by
      by_contra hle
      exact absurd (he.symm.trans (hgap e.1 (not_lt.mp hle) hlt)) (by simp)
    exact ⟨he, hev, fun k x hk hx => hmax k x (hk.trans_le hvw) hx⟩
  · rintro ⟨he, hlt, hmax⟩
    refine ⟨he, hlt.trans_le hvw, ?_⟩
    intro k x hk hx
    refine hmax k x ?_ hx
    by_contra hle
    exact absurd (hx.symm.trans (hgap k (not_lt.mp hle) hk)) (by simp)

/-- Two keys with no entry from the one to the other have the same entry above. -/
theorem upBound_eq_of_gap {v w : K} (hvw : v ≤ w)
    (hgap : ∀ k, v < k → k ≤ w → get? (M := BTreeMap K) m k = none) :
    upBound m w = upBound m v := by
  refine Option.ext fun e => ?_
  rw [upBound_eq_some_iff, upBound_eq_some_iff]
  constructor
  · rintro ⟨he, hlt, hmin⟩
    refine ⟨he, hvw.trans_lt hlt, ?_⟩
    intro k x hk hx
    refine hmin k x ?_ hx
    by_contra hle
    exact absurd (hx.symm.trans (hgap k hk (not_lt.mp hle))) (by simp)
  · rintro ⟨he, hlt, hmin⟩
    have hwe : w < e.1 := by
      by_contra hle
      exact absurd (he.symm.trans (hgap e.1 hlt (not_lt.mp hle))) (by simp)
    exact ⟨he, hwe, fun k x hk hx => hmin k x (hvw.trans_lt hk) hx⟩

end BTreeMap

end StackableOperator
