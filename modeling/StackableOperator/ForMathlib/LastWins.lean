import Mathlib
import StackableOperator.ForMathlib.IterMap

/-!
# Maps from lists with repeated keys

Items that are inserted into a map one after the other replace those with the same key, so that
every key holds its last value (`get?_collect_eq_lastValue`). Items that go through an ordered set
first are inserted in the order of their keys and values, so that every key holds its greatest
value. The two maps are the same iff every key comes last with its greatest value
(`collect_orderedSet_eq_iff`).
-/

namespace StackableOperator

variable {K V : Type}

section LastValue

variable [DecidableEq K]

/-- The value of the last item with a key. -/
def lastValue (l : List (K × V)) (k : K) : Option V :=
  (l.reverse.find? fun e => e.1 = k).map Prod.snd

theorem lastValue_eq_none_iff {l : List (K × V)} {k : K} :
    lastValue l k = none ↔ ∀ e ∈ l, e.1 ≠ k := by
  rw [lastValue, Option.map_eq_none_iff, List.find?_eq_none]
  simp

/-- The last value of a key, and that no item with this key follows. -/
theorem lastValue_eq_some_iff {l : List (K × V)} {k : K} {v : V} :
    lastValue l k = some v ↔ ∃ front rest, l = front ++ (k, v) :: rest ∧ ∀ e ∈ rest, e.1 ≠ k := by
  rw [lastValue, Option.map_eq_some_iff]
  constructor
  · rintro ⟨⟨k', v'⟩, hfind, rfl⟩
    obtain ⟨hk, rest, front, hl, hrest⟩ := List.find?_eq_some_iff_append.mp hfind
    obtain rfl : k' = k := of_decide_eq_true hk
    refine ⟨front.reverse, rest.reverse, ?_, fun e he => ?_⟩
    · rw [← l.reverse_reverse, hl]
      simp
    · simpa using hrest e (List.mem_reverse.mp he)
  · rintro ⟨front, rest, rfl, hrest⟩
    refine ⟨(k, v), List.find?_eq_some_iff_append.mpr ⟨by simp, rest.reverse, front.reverse, ?_⟩,
      rfl⟩
    refine ⟨by simp, fun e he => ?_⟩
    simpa using hrest e (List.mem_reverse.mp he)

theorem mem_of_lastValue_eq_some {l : List (K × V)} {k : K} {v : V} (h : lastValue l k = some v) :
    (k, v) ∈ l := by
  obtain ⟨front, rest, rfl, -⟩ := lastValue_eq_some_iff.mp h
  simp

theorem lastValue_concat (l : List (K × V)) (e : K × V) (k : K) :
    lastValue (l ++ [e]) k = if k = e.1 then some e.2 else lastValue l k := by
  rw [lastValue, List.reverse_concat, List.find?_cons]
  by_cases hk : e.1 = k
  · simp [hk]
  · simp [hk, Ne.symm hk, lastValue]

/-- Without repeated keys every item is the last one of its key. -/
theorem lastValue_eq_some_iff_mem {l : List (K × V)} (hl : (l.map Prod.fst).Nodup) {k : K} {v : V} :
    lastValue l k = some v ↔ (k, v) ∈ l := by
  refine ⟨mem_of_lastValue_eq_some, fun h => ?_⟩
  obtain ⟨front, rest, rfl⟩ := List.append_of_mem h
  rw [List.map_append, List.map_cons, List.nodup_append, List.nodup_cons] at hl
  refine lastValue_eq_some_iff.mpr ⟨front, rest, rfl, fun e he heq => ?_⟩
  exact hl.2.1.1 (List.mem_map.mpr ⟨e, he, heq⟩)

/-- The value of the first item with a key. -/
def firstValue (l : List (K × V)) (k : K) : Option V := (l.find? fun e => e.1 = k).map Prod.snd

theorem firstValue_concat (l : List (K × V)) (e : K × V) (k : K) :
    firstValue (l ++ [e]) k = (firstValue l k).or (if k = e.1 then some e.2 else none) := by
  rw [firstValue, List.find?_append, Option.map_or, firstValue]
  by_cases hk : e.1 = k
  · simp [hk]
  · simp [hk, Ne.symm hk]

/-- **Collecting, with repeated keys**: every key holds its last value. -/
theorem IterMap.get?_collect_eq_lastValue {M : Type → Type} [IterMap K M] (l : List (K × V))
    (k : K) : get? (collect l : M V) k = lastValue l k := by
  induction l using List.reverseRecOn with
  | nil => exact get?_empty k
  | append_singleton l e ih =>
    rw [collect, List.foldl_concat, ← collect, lastValue, List.reverse_concat, List.find?_cons]
    by_cases hk : e.1 = k
    · subst hk
      rw [get?_insert_self]
      simp
    · rw [get?_insert_of_ne _ _ (Ne.symm hk), ih]
      simp [hk, lastValue]

end LastValue

section OrderedSet

variable [LinearOrder K] [LinearOrder V]

/-- The items in an ordered set, by key and then by value. -/
def orderedSet (l : List (K × V)) : List (K × V) :=
  ((l.map toLex).toFinset.sort (· ≤ ·)).map ofLex

theorem mem_orderedSet {l : List (K × V)} {e : K × V} : e ∈ orderedSet l ↔ e ∈ l := by
  have hmap : e ∈ orderedSet l ↔ toLex e ∈ (l.map toLex).toFinset.sort (· ≤ ·) :=
    List.mem_map_of_injective (a := toLex e) ofLex.injective
  rw [hmap, Finset.mem_sort, List.mem_toFinset, List.mem_map_of_injective toLex.injective]

/-- In an ordered set, the values of a key are in increasing order. -/
theorem le_of_mem_orderedSet {l front rest : List (K × V)} {k : K} {v v' : V}
    (h : orderedSet l = front ++ (k, v) :: rest) (hmem : (k, v') ∈ front) : v' ≤ v := by
  have hsorted : ((l.map toLex).toFinset.sort (· ≤ ·)).Pairwise (· ≤ ·) :=
    Finset.pairwise_sort _ _
  have hpairwise : (orderedSet l).Pairwise fun e e' => toLex e ≤ toLex e' := by
    rw [orderedSet, List.pairwise_map]
    exact hsorted
  rw [h, List.pairwise_append] at hpairwise
  have hle := hpairwise.2.2 (k, v') hmem (k, v) List.mem_cons_self
  obtain hlt | ⟨-, hle⟩ := Prod.Lex.toLex_le_toLex.mp hle
  · exact absurd hlt (lt_irrefl k)
  · exact hle

/-- The last value of a key in an ordered set is the greatest one. -/
theorem lastValue_orderedSet_eq_some_iff {l : List (K × V)} {k : K} {v : V} :
    lastValue (orderedSet l) k = some v ↔ (k, v) ∈ l ∧ ∀ v', (k, v') ∈ l → v' ≤ v := by
  have hgreatest : ∀ {v}, lastValue (orderedSet l) k = some v → ∀ v', (k, v') ∈ l → v' ≤ v := by
    intro v h v' hv'
    obtain ⟨front, rest, hl, hrest⟩ := lastValue_eq_some_iff.mp h
    have hmem : (k, v') ∈ front ++ (k, v) :: rest := hl ▸ mem_orderedSet.mpr hv'
    rw [List.mem_append, List.mem_cons] at hmem
    obtain hfront | heq | hmem := hmem
    · exact le_of_mem_orderedSet hl hfront
    · exact (Prod.mk.inj heq).2.le
    · exact absurd rfl (hrest _ hmem)
  constructor
  · intro h
    exact ⟨mem_orderedSet.mp (mem_of_lastValue_eq_some h), hgreatest h⟩
  · rintro ⟨hv, hle⟩
    cases h : lastValue (orderedSet l) k with
    | none => exact absurd rfl (lastValue_eq_none_iff.mp h _ (mem_orderedSet.mpr hv))
    | some w =>
      have hw : (k, w) ∈ l := mem_orderedSet.mp (mem_of_lastValue_eq_some h)
      rw [le_antisymm (hle w hw) (hgreatest h v hv)]

/-- The last value of every key is its greatest one. -/
def LastIsGreatest (l : List (K × V)) : Prop :=
  ∀ e ∈ l, ∀ v ∈ lastValue l e.1, e.2 ≤ v

/-- **When the order does not matter**: collecting the items of a list through an ordered set
gives the same map as collecting them directly iff the last value of every key is its greatest
one. -/
theorem collect_orderedSet_eq_iff (l : List (K × V)) :
    IterMap.collect (M := BTreeMap K) (orderedSet l) = IterMap.collect (M := BTreeMap K) l ↔
      LastIsGreatest l := by
  constructor
  · rintro h ⟨k, v'⟩ he v hv
    have hget := congrArg (fun m => IterMap.get? (M := BTreeMap K) m k) h
    simp only [IterMap.get?_collect_eq_lastValue] at hget
    rw [Option.mem_def.mp hv] at hget
    exact (lastValue_orderedSet_eq_some_iff.mp hget).2 v' he
  · intro h
    refine BTreeMap.ext_get? fun k => ?_
    rw [IterMap.get?_collect_eq_lastValue, IterMap.get?_collect_eq_lastValue]
    cases hk : lastValue l k with
    | none =>
      exact lastValue_eq_none_iff.mpr fun e he =>
        lastValue_eq_none_iff.mp hk e (mem_orderedSet.mp he)
    | some v =>
      exact lastValue_orderedSet_eq_some_iff.mpr
        ⟨mem_of_lastValue_eq_some hk, fun v' hv' => h (k, v') hv' v hk⟩

end OrderedSet

end StackableOperator
