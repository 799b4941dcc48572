import Mathlib

/-!
# Finite maps with an iteration order

`IterMap K M` says that `M V` is a finite map from `K` to `V` which can also be *iterated*:
`iter` lists every entry once, in an order that the map type chooses. Two instances are given.
`BTreeMap` iterates in the order of its keys; `HashMap` iterates in an order of its own, which
the laws leave open, so that whatever is proved from the laws holds for every iteration order.

On top of the laws stand the two loops that programs write over such maps: `mergeWith`
(walk over the second map, combining with the entries of the first) and `collect` (build a
map from an iterator). Both are characterised by their lookups.
-/

namespace StackableOperator

/-- A finite map type: lookup, insertion, and an iterator over all entries. The laws fix the
lookups completely and the iterator up to its order. -/
class IterMap (K : outParam Type) (M : Type → Type) where
  /-- The value stored under a key. -/
  get? {V : Type} : M V → K → Option V
  /-- The map without entries. -/
  empty {V : Type} : M V
  /-- Insert or replace the entry of one key. -/
  insert {V : Type} : M V → K → V → M V
  /-- All entries, in the iteration order of the map. -/
  iter {V : Type} : M V → List (K × V)
  get?_empty {V : Type} (k : K) : get? (empty : M V) k = none
  get?_insert_self {V : Type} (m : M V) (k : K) (v : V) : get? (insert m k v) k = some v
  get?_insert_of_ne {V : Type} (m : M V) {k k' : K} (v : V) (h : k' ≠ k) :
    get? (insert m k v) k' = get? m k'
  mem_iter {V : Type} (m : M V) (k : K) (v : V) : (k, v) ∈ iter m ↔ get? m k = some v
  nodup_iter {V : Type} (m : M V) : ((iter m).map Prod.fst).Nodup

namespace IterMap

variable {K : Type} {M : Type → Type} [IterMap K M] {V W : Type}

/-- A key without a value does not occur in the iteration. -/
theorem notMem_of_get?_eq_none {m : M V} {k : K} (h : get? m k = none) :
    k ∉ (iter m).map Prod.fst := by
  intro hk
  obtain ⟨e, he, rfl⟩ := List.mem_map.mp hk
  have hsome : get? m e.1 = some e.2 := (mem_iter _ _ _).mp he
  exact absurd (hsome.symm.trans h) (by simp)

/-! ### The merging loop -/

/-- One round of the merging loop: an occupied entry is combined with the default, a vacant
one receives it. -/
def mergeEntry (f : V → V → V) (m : M V) (e : K × V) : M V :=
  match get? m e.1 with
  | some v => insert m e.1 (f v e.2)
  | none => insert m e.1 e.2

/-- Walk over the entries of `defaults` and merge each into `self`. -/
def mergeWith (f : V → V → V) (self defaults : M V) : M V :=
  (iter defaults).foldl (mergeEntry f) self

theorem get?_mergeEntry_self (f : V → V → V) (m : M V) (k : K) (d : V) :
    get? (mergeEntry f m (k, d)) k = (get? m k).merge f (some d) := by
  unfold mergeEntry
  cases h : get? m k <;> simp [get?_insert_self]

theorem get?_mergeEntry_of_ne (f : V → V → V) (m : M V) {k k' : K} (d : V) (h : k' ≠ k) :
    get? (mergeEntry f m (k, d)) k' = get? m k' := by
  unfold mergeEntry
  split <;> exact get?_insert_of_ne m _ h

/-- Keys that the loop does not visit keep their entry. -/
theorem get?_foldl_mergeEntry_of_notMem (f : V → V → V) {l : List (K × V)} (m : M V) {k : K}
    (h : k ∉ l.map Prod.fst) : get? (l.foldl (mergeEntry f) m) k = get? m k := by
  induction l generalizing m with
  | nil => rfl
  | cons e l ih =>
    simp only [List.map_cons, List.mem_cons, not_or] at h
    rw [List.foldl_cons, ih _ h.2]
    exact get?_mergeEntry_of_ne f m e.2 h.1

/-- Over an iterator without duplicate keys, each visited key is combined exactly once. -/
theorem get?_foldl_mergeEntry_of_mem (f : V → V → V) {l : List (K × V)}
    (hl : (l.map Prod.fst).Nodup) (m : M V) {k : K} {d : V} (h : (k, d) ∈ l) :
    get? (l.foldl (mergeEntry f) m) k = (get? m k).merge f (some d) := by
  induction l generalizing m with
  | nil => exact absurd h List.not_mem_nil
  | cons e l ih =>
    rw [List.map_cons, List.nodup_cons] at hl
    rw [List.foldl_cons]
    rcases List.mem_cons.mp h with rfl | h
    · rw [get?_foldl_mergeEntry_of_notMem f _ hl.1, get?_mergeEntry_self]
    · have hne : k ≠ e.1 := by
        rintro rfl
        exact hl.1 (List.mem_map.mpr ⟨_, h, rfl⟩)
      rw [ih hl.2 _ h, get?_mergeEntry_of_ne f m e.2 hne]

/-- **The merging loop, by its lookups**: the result holds a key iff one of the two maps
does, and combines the two values where both do. -/
theorem get?_mergeWith (f : V → V → V) (self defaults : M V) (k : K) :
    get? (mergeWith f self defaults) k = (get? self k).merge f (get? defaults k) := by
  unfold mergeWith
  cases h : get? defaults k with
  | some d =>
    exact get?_foldl_mergeEntry_of_mem f (nodup_iter _) self ((mem_iter _ k d).mpr h)
  | none =>
    rw [Option.merge_none_right]
    exact get?_foldl_mergeEntry_of_notMem f self (notMem_of_get?_eq_none h)

/-! ### Collecting an iterator -/

/-- Build a map by inserting the items of an iterator one after the other. -/
def collect (l : List (K × V)) : M V :=
  l.foldl (fun m e => insert m e.1 e.2) empty

theorem get?_foldl_insert_of_notMem {l : List (K × V)} (m : M V) {k : K}
    (h : k ∉ l.map Prod.fst) : get? (l.foldl (fun m e => insert m e.1 e.2) m) k = get? m k := by
  induction l generalizing m with
  | nil => rfl
  | cons e l ih =>
    simp only [List.map_cons, List.mem_cons, not_or] at h
    rw [List.foldl_cons, ih _ h.2, get?_insert_of_ne m e.2 h.1]

theorem get?_foldl_insert_of_mem {l : List (K × V)} (hl : (l.map Prod.fst).Nodup) (m : M V)
    {k : K} {v : V} (h : (k, v) ∈ l) :
    get? (l.foldl (fun m e => insert m e.1 e.2) m) k = some v := by
  induction l generalizing m with
  | nil => exact absurd h List.not_mem_nil
  | cons e l ih =>
    rw [List.map_cons, List.nodup_cons] at hl
    rw [List.foldl_cons]
    rcases List.mem_cons.mp h with rfl | h
    · rw [get?_foldl_insert_of_notMem _ hl.1, get?_insert_self]
    · exact ih hl.2 _ h

/-- **Collecting, by its lookups**: over an iterator without duplicate keys, the collected
map holds exactly the iterated entries. -/
theorem get?_collect {l : List (K × V)} (hl : (l.map Prod.fst).Nodup) {k : K} {v : V} :
    get? (collect l : M V) k = some v ↔ (k, v) ∈ l := by
  constructor
  · intro h
    by_contra hno
    by_cases hk : k ∈ l.map Prod.fst
    · obtain ⟨e, he, rfl⟩ := List.mem_map.mp hk
      have hget : get? (collect l : M V) e.1 = some e.2 :=
        get?_foldl_insert_of_mem hl _ (v := e.2) he
      obtain rfl : e.2 = v := Option.some.inj (hget.symm.trans h)
      exact hno he
    · have hget : get? (collect l : M V) k = none :=
        (get?_foldl_insert_of_notMem _ hk).trans (get?_empty k)
      exact absurd (hget.symm.trans h) (by simp)
  · exact get?_foldl_insert_of_mem hl _

/-- Insert the entries of `other` one after the other, replacing the old ones. -/
def extend (self other : M V) : M V :=
  (iter other).foldl (fun m e => insert m e.1 e.2) self

/-- **Extending, by its lookups**: the entries of `other` win. -/
theorem get?_extend (self other : M V) (k : K) :
    get? (extend self other) k = (get? other k).or (get? self k) := by
  unfold extend
  cases h : get? other k with
  | some v => exact get?_foldl_insert_of_mem (nodup_iter _) self ((mem_iter _ k v).mpr h)
  | none =>
    exact get?_foldl_insert_of_notMem self (notMem_of_get?_eq_none h)

/-- The keys of a map. -/
def keys (m : M V) [DecidableEq K] : Finset K := ((iter m).map Prod.fst).toFinset

theorem mem_keys [DecidableEq K] {m : M V} {k : K} :
    k ∈ keys m ↔ (get? m k).isSome = true := by
  rw [keys, List.mem_toFinset, List.mem_map, Option.isSome_iff_exists]
  constructor
  · rintro ⟨e, he, rfl⟩
    exact ⟨e.2, (mem_iter m e.1 e.2).mp he⟩
  · rintro ⟨v, hv⟩
    exact ⟨(k, v), (mem_iter m k v).mpr hv, rfl⟩

end IterMap

/-! ### The two map types -/

/-- A map that iterates in the order of its keys. -/
abbrev BTreeMap (K : Type) [LinearOrder K] (V : Type) : Type := Std.ExtTreeMap K V compare

instance BTreeMap.instIterMap (K : Type) [LinearOrder K] : IterMap K (BTreeMap K) where
  get? m k := m[k]?
  empty := ∅
  insert m k v := Std.ExtTreeMap.insert m k v
  iter m := Std.ExtTreeMap.toList m
  get?_empty k := by simp
  get?_insert_self m k v := by simp
  get?_insert_of_ne m k k' v h := by
    rw [Std.ExtTreeMap.getElem?_insert, if_neg]
    exact fun hc => h (compare_eq_iff_eq.mp hc).symm
  mem_iter m k v := Std.ExtTreeMap.mem_toList_iff_getElem?_eq_some
  nodup_iter m := by
    rw [List.Nodup, List.pairwise_map]
    refine Std.ExtTreeMap.distinct_keys_toList.imp fun {a b} h hab => h ?_
    exact compare_eq_iff_eq.mpr hab

/-- A tree map is iterated in strictly increasing key order. -/
theorem BTreeMap.sorted_iter {K V : Type} [LinearOrder K] (m : BTreeMap K V) :
    ((IterMap.iter m).map Prod.fst).Pairwise (· < ·) := by
  rw [List.pairwise_map]
  exact Std.ExtTreeMap.ordered_keys_toList.imp fun {a b} h => compare_lt_iff_lt.mp h

/-- A sorted list with the same entries is what a map iterates over. -/
theorem BTreeMap.iter_eq_of_sorted {K V : Type} [LinearOrder K] {m : BTreeMap K V}
    {l : List (K × V)} (hsorted : (l.map Prod.fst).Pairwise (· < ·))
    (h : ∀ k v, IterMap.get? m k = some v ↔ (k, v) ∈ l) : IterMap.iter m = l := by
  have hkeys : (l.map Prod.fst).Nodup := hsorted.imp fun hlt => ne_of_lt hlt
  have hnodup : l.Nodup := hkeys.of_map
  have hiter : (IterMap.iter m).Nodup := (IterMap.nodup_iter m).of_map
  have hperm : (IterMap.iter m).Perm l := by
    refine (List.perm_ext_iff_of_nodup hiter hnodup).mpr fun e => ?_
    exact (IterMap.mem_iter m e.1 e.2).trans (h e.1 e.2)
  have hantisymm : ∀ a b : K × V, a ∈ IterMap.iter m → b ∈ l → a.1 < b.1 → b.1 < a.1 → a = b :=
    fun a b _ _ hab hba => absurd hba (not_lt_of_gt hab)
  exact hperm.eq_of_pairwise hantisymm (List.pairwise_map.mp (BTreeMap.sorted_iter m))
    (List.pairwise_map.mp hsorted)

namespace BTreeMap

variable {K V : Type} [LinearOrder K]

/-- The map without the entry of a key. -/
def remove (m : BTreeMap K V) (k : K) : BTreeMap K V := Std.ExtTreeMap.erase m k

theorem get?_remove_self (m : BTreeMap K V) (k : K) :
    IterMap.get? (M := BTreeMap K) (remove m k) k = none := by
  show (Std.ExtTreeMap.erase m k)[k]? = none
  simp

theorem get?_remove_of_ne (m : BTreeMap K V) {k k' : K} (h : k' ≠ k) :
    IterMap.get? (M := BTreeMap K) (remove m k) k' = IterMap.get? (M := BTreeMap K) m k' := by
  show (Std.ExtTreeMap.erase m k)[k']? = m[k']?
  rw [Std.ExtTreeMap.getElem?_erase, if_neg]
  exact fun hc => h (compare_eq_iff_eq.mp hc).symm

theorem ext_get? {m m' : BTreeMap K V}
    (h : ∀ k, IterMap.get? (M := BTreeMap K) m k = IterMap.get? (M := BTreeMap K) m' k) :
    m = m' :=
  Std.ExtTreeMap.ext_getElem? fun {k} => h k

/-- Insertion replaces the entry of one key and keeps the other entries. -/
theorem perm_iter_insert (m : BTreeMap K V) (k : K) (v : V) :
    (IterMap.iter (M := BTreeMap K) (IterMap.insert (M := BTreeMap K) m k v)).Perm
      ((k, v) :: IterMap.iter (M := BTreeMap K) (remove m k)) := by
  have hnotMem : (k, v) ∉ IterMap.iter (M := BTreeMap K) (remove m k) := by
    rw [IterMap.mem_iter, get?_remove_self]
    simp
  refine (List.perm_ext_iff_of_nodup (IterMap.nodup_iter (M := BTreeMap K) _).of_map
    (List.nodup_cons.mpr ⟨hnotMem, (IterMap.nodup_iter (M := BTreeMap K) _).of_map⟩)).mpr ?_
  rintro ⟨k', v'⟩
  rw [List.mem_cons, IterMap.mem_iter, IterMap.mem_iter]
  by_cases hk : k' = k
  · subst hk
    rw [IterMap.get?_insert_self, get?_remove_self]
    simp [eq_comm]
  · rw [IterMap.get?_insert_of_ne _ _ hk, get?_remove_of_ne m hk]
    simp [hk]

end BTreeMap

/-- A map that iterates in the order of its entry list, which stands for whatever order the
hasher produced. -/
abbrev HashMap (K V : Type) : Type := AList fun _ : K => V

instance HashMap.instIterMap (K : Type) [DecidableEq K] : IterMap K (HashMap K) where
  get? m k := AList.lookup k m
  empty {V} := (∅ : AList fun _ : K => V)
  insert m k v := AList.insert k v m
  iter {V} m := (AList.entries m).map fun e : (_ : K) × V => (e.1, e.2)
  get?_empty k := AList.lookup_empty k
  get?_insert_self m k v := AList.lookup_insert m
  get?_insert_of_ne m k k' v h := AList.lookup_insert_ne h
  mem_iter {V} m k v := by
    rw [← Option.mem_def, AList.mem_lookup_iff, List.mem_map]
    constructor
    · rintro ⟨e, he, heq⟩
      obtain ⟨rfl, rfl⟩ := Prod.mk.inj heq
      exact he
    · intro h
      exact ⟨⟨k, v⟩, h, rfl⟩
  nodup_iter m := by
    rw [List.map_map]
    exact AList.keys_nodup m

end StackableOperator
