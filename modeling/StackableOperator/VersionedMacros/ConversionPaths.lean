import Mathlib
import StackableOperator.ForMathlib.Segment
import StackableOperator.ForMathlib.Traverse
import StackableOperator.VersionedMacros.Attrs

/-!
# Conversion paths

The versions through which an object is converted to a desired version, for every pair of
versions. In an ascending list of versions they are `pathTo` (`conversionPaths_eq_ok`): there is
exactly one path for every pair, through consecutive versions.
-/

namespace StackableOperator

namespace VersionedMacros

variable {α : Type}

/-! ### The model of the source -/

/-- The ordered pairs of items at different positions. -/
def permutations2 (elements : List α) : List (α × α) :=
  elements.zipIdx.flatMap fun start =>
    (elements.eraseIdx start.2).map fun stop => (start.1, stop)

/-- The path between the items of a pair. -/
def conversionPath [DecidableEq α] (elements : List α) (start stop : α) :
    Except Failure (Option (α × List α)) :=
  match elements.findIdx? (· = start), elements.findIdx? (· = stop) with
  | some startIndex, some endIndex =>
    if startIndex < endIndex then
      .ok (some (start, (elements.drop (startIndex + 1)).take (endIndex - startIndex)))
    else if endIndex < startIndex then
      .ok (some (start, ((elements.drop endIndex).take (startIndex - endIndex)).reverse))
    else .error .panic
  | _, _ => .ok none

def conversionPaths [DecidableEq α] (elements : List α) :
    Except Failure (List (α × List α)) := do
  let chain ← (permutations2 elements).mapM fun pair => conversionPath elements pair.1 pair.2
  return chain.reduceOption

/-! ### The paths of an ascending list -/

section Ascending

variable {K : Type} [LinearOrder K] {key : α → K} {elements : List α} {a b c : α}

theorem nodup_of_pairwise_map (h : (elements.map key).Pairwise (· < ·)) : elements.Nodup := by
  rw [List.pairwise_map] at h
  refine h.imp fun hlt => ?_
  rintro rfl
  exact absurd hlt (lt_irrefl _)

/-- The position of an item. -/
theorem findIdx?_eq_some [DecidableEq α] (h : elements.Nodup) {i : ℕ} (hi : elements[i]? = some a) :
    elements.findIdx? (· = a) = some i := by
  obtain ⟨hlt, rfl⟩ := List.getElem?_eq_some_iff.mp hi
  refine List.findIdx?_eq_some_iff_getElem.mpr ⟨hlt, by simp, ?_⟩
  intro j hji
  have hne : elements[j] ≠ elements[i] := by
    intro heq
    exact absurd ((h.getElem_inj_iff).mp heq) hji.ne
  simp [hne]

/-- The pairs of different items. -/
theorem mem_permutations2_iff (h : elements.Nodup) :
    (a, b) ∈ permutations2 elements ↔ a ∈ elements ∧ b ∈ elements ∧ a ≠ b := by
  simp only [permutations2, List.mem_flatMap, List.mem_map, Prod.mk.injEq]
  constructor
  · rintro ⟨⟨x, i⟩, hx, y, hy, rfl, rfl⟩
    have hi : elements[i]? = some x := List.mem_zipIdx_iff_getElem?.mp hx
    obtain ⟨hlt, rfl⟩ := List.getElem?_eq_some_iff.mp hi
    obtain ⟨j, hj, hji, rfl⟩ := List.mem_eraseIdx_iff_getElem.mp hy
    refine ⟨List.getElem_mem hlt, List.getElem_mem _, ?_⟩
    intro heq
    exact hji (h.getElem_inj_iff.mp heq).symm
  · rintro ⟨ha, hb, hab⟩
    obtain ⟨i, hi⟩ := List.mem_iff_getElem?.mp ha
    obtain ⟨j, hj⟩ := List.mem_iff_getElem?.mp hb
    refine ⟨(a, i), List.mem_zipIdx_iff_getElem?.mpr hi, b, ?_, rfl, rfl⟩
    refine List.mem_eraseIdx_iff_getElem?.mpr ⟨j, ?_, hj⟩
    rintro rfl
    exact hab (Option.some.inj (hi.symm.trans hj))

theorem nodup_permutations2 (h : elements.Nodup) : (permutations2 elements).Nodup := by
  rw [permutations2, List.nodup_flatMap]
  refine ⟨?_, ?_⟩
  · rintro ⟨x, i⟩ -
    refine (h.sublist (List.eraseIdx_sublist _ _)).map ?_
    intro y y' heq
    exact (Prod.mk.inj heq).2
  · have hfst : (elements.zipIdx.map Prod.fst).Nodup := by
      rw [List.zipIdx_map_fst]
      exact h
    rw [List.Nodup, List.pairwise_map] at hfst
    refine hfst.imp fun {x y} hxy => ?_
    rw [Function.onFun, List.disjoint_left]
    rintro pair hx hy
    obtain ⟨_, -, rfl⟩ := List.mem_map.mp hx
    obtain ⟨_, -, heq⟩ := List.mem_map.mp hy
    exact hxy (Prod.mk.inj heq).1.symm

/-- The path between different items. -/
theorem conversionPath_eq_ok [DecidableEq α] (h : (elements.map key).Pairwise (· < ·))
    (ha : a ∈ elements) (hb : b ∈ elements) (hab : a ≠ b) :
    conversionPath elements a b = .ok (some (a, pathTo key elements a b)) := by
  obtain ⟨i, hi⟩ := List.mem_iff_getElem?.mp ha
  obtain ⟨j, hj⟩ := List.mem_iff_getElem?.mp hb
  have hnodup := nodup_of_pairwise_map h
  simp only [conversionPath, findIdx?_eq_some hnodup hi, findIdx?_eq_some hnodup hj]
  rcases lt_trichotomy i j with hij | rfl | hji
  · rw [if_pos hij, pathTo_eq_of_lt h hi hj hij]
  · exact absurd (Option.some.inj (hi.symm.trans hj)) hab
  · rw [if_neg hji.not_gt, if_pos hji, pathTo_eq_of_gt h hi hj hji]

/-- **The conversion paths of an ascending list.** -/
theorem conversionPaths_eq_ok [DecidableEq α] (h : (elements.map key).Pairwise (· < ·)) :
    conversionPaths elements = .ok ((permutations2 elements).map fun pair =>
      (pair.1, pathTo key elements pair.1 pair.2)) := by
  have hnodup := nodup_of_pairwise_map h
  have hchain : (permutations2 elements).mapM (fun pair => conversionPath elements pair.1 pair.2) =
      .ok ((permutations2 elements).map fun pair =>
        some (pair.1, pathTo key elements pair.1 pair.2)) := by
    rw [mapM_eq_ok_iff, List.forall₂_map_right_iff, List.forall₂_same]
    rintro ⟨a, b⟩ hpair
    obtain ⟨ha, hb, hab⟩ := (mem_permutations2_iff hnodup).mp hpair
    exact conversionPath_eq_ok h ha hb hab
  have hreduce (pairs : List (α × α)) : (pairs.map fun pair =>
      some (pair.1, pathTo key elements pair.1 pair.2)).reduceOption =
        pairs.map fun pair => (pair.1, pathTo key elements pair.1 pair.2) := by
    induction pairs with
    | nil => rfl
    | cons pair pairs ih =>
      rw [List.map_cons, List.map_cons, List.reduceOption_cons_of_some, ih]
  rw [conversionPaths, hchain, ← hreduce]
  rfl

/-- What the conversion paths have to be: one for every ordered pair of different items, through
consecutive items, and through all items between. -/
structure IsConversionPaths (key : α → K) (elements : List α) (paths : List (α × List α)) :
    Prop where
  exists_iff : ∀ a b, (∃ path, (a, path) ∈ paths ∧ path.getLast? = some b) ↔
    a ∈ elements ∧ b ∈ elements ∧ a ≠ b
  nodup : (paths.map fun path => (path.1, path.2.getLast?)).Nodup
  ne_nil : ∀ a path, (a, path) ∈ paths → path ≠ []
  consecutive : ∀ a path, (a, path) ∈ paths →
    (a :: path) <:+: elements ∨ (a :: path).reverse <:+: elements
  append : ∀ a b c path path', (a, path) ∈ paths → path.getLast? = some b →
    (b, path') ∈ paths → path'.getLast? = some c →
    (key a < key b ∧ key b < key c) ∨ (key c < key b ∧ key b < key a) → (a, path ++ path') ∈ paths

theorem isConversionPaths (h : (elements.map key).Pairwise (· < ·)) :
    IsConversionPaths key elements ((permutations2 elements).map fun pair =>
      (pair.1, pathTo key elements pair.1 pair.2)) := by
  have hnodup := nodup_of_pairwise_map h
  have hkey : ∀ {a b}, a ∈ elements → b ∈ elements → a ≠ b → key a ≠ key b := by
    intro a b ha hb hab heq
    exact hab ((List.inj_on_of_nodup_map (h.imp fun hlt => hlt.ne)) ha hb heq)
  -- a path ends in its target
  have hlast : ∀ {a b}, (a, b) ∈ permutations2 elements →
      (pathTo key elements a b).getLast? = some b := by
    intro a b hpair
    obtain ⟨ha, hb, hab⟩ := (mem_permutations2_iff hnodup).mp hpair
    exact (infix_pathTo h ha hb (hkey ha hb hab)).2
  have hmem : ∀ {a path}, (a, path) ∈ (permutations2 elements).map (fun pair =>
      (pair.1, pathTo key elements pair.1 pair.2)) → ∃ b, (a, b) ∈ permutations2 elements ∧
        path = pathTo key elements a b ∧ path.getLast? = some b := by
    intro a path hpath
    obtain ⟨⟨a, b⟩, hpair, heq⟩ := List.mem_map.mp hpath
    obtain ⟨rfl, rfl⟩ := Prod.mk.inj heq
    exact ⟨b, hpair, rfl, hlast hpair⟩
  -- which pairs have a path, one path each, none is empty, each is contiguous, and they compose
  refine ⟨?_, ?_, ?_, ?_, ?_⟩
  · intro a b
    rw [← mem_permutations2_iff hnodup]
    constructor
    · rintro ⟨path, hpath, hb⟩
      obtain ⟨b', hpair, -, hb'⟩ := hmem hpath
      rw [Option.some.inj (hb.symm.trans hb')]
      exact hpair
    · intro hpair
      exact ⟨_, List.mem_map.mpr ⟨(a, b), hpair, rfl⟩, hlast hpair⟩
  · rw [List.map_map]
    refine (nodup_permutations2 hnodup).map_on ?_
    rintro ⟨a, b⟩ hpair ⟨a', b'⟩ hpair' heq
    obtain ⟨rfl, heq⟩ := Prod.mk.inj heq
    rw [hlast hpair, hlast hpair'] at heq
    rw [Option.some.inj heq]
  · rintro a path hpath rfl
    obtain ⟨b, -, -, hb⟩ := hmem hpath
    exact absurd hb (by simp)
  · intro a path hpath
    obtain ⟨b, hpair, rfl, -⟩ := hmem hpath
    obtain ⟨ha, hb, hab⟩ := (mem_permutations2_iff hnodup).mp hpair
    exact (infix_pathTo h ha hb (hkey ha hb hab)).1
  · intro a b c path path' hpath hb hpath' hc hbetween
    obtain ⟨b', hpair, rfl, hb'⟩ := hmem hpath
    obtain rfl := Option.some.inj (hb.symm.trans hb')
    obtain ⟨c', hpair', rfl, hc'⟩ := hmem hpath'
    obtain rfl := Option.some.inj (hc.symm.trans hc')
    obtain ⟨ha, -, -⟩ := (mem_permutations2_iff hnodup).mp hpair
    obtain ⟨-, hcmem, -⟩ := (mem_permutations2_iff hnodup).mp hpair'
    rw [← pathTo_append h hbetween]
    refine List.mem_map.mpr ⟨(a, c), (mem_permutations2_iff hnodup).mpr ⟨ha, hcmem, ?_⟩, rfl⟩
    rintro rfl
    rcases hbetween with ⟨hab, hba⟩ | ⟨hab, hba⟩
    · exact absurd hab hba.asymm
    · exact absurd hab hba.asymm

end Ascending

end VersionedMacros

end StackableOperator
