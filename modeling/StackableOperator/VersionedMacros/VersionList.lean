import Mathlib
import StackableOperator.K8sVersion.Denotes
import StackableOperator.VersionedMacros.Attrs

/-!
# Lists of versions

A versioned module sorts its versions and looks for duplicates. `mem_duplicates_iff` says which
versions are reported, and `versions_fit_together` that this is well defined for versions
that are given as texts.
-/

namespace StackableOperator

namespace VersionedMacros

namespace ModuleAttributes

theorem mem_duplicates_iff {seen vs : List Version} {v : Version} :
    v ∈ duplicates seen vs ↔ seen.count v ≤ 1 ∧ 2 ≤ seen.count v + vs.count v := by
  induction vs generalizing seen with
  | nil =>
    rw [duplicates, List.count_nil]
    exact iff_of_false List.not_mem_nil (by omega)
  | cons w vs ih =>
    rw [duplicates]
    by_cases hvw : v = w
    · subst hvw
      rw [List.count_cons_self]
      split_ifs with hcount
      · exact iff_of_true List.mem_cons_self (by omega)
      · rw [ih, List.count_cons_self]
        omega
    · have hrest : v ∈ duplicates (w :: seen) vs ↔
          seen.count v ≤ 1 ∧ 2 ≤ seen.count v + (w :: vs).count v := by
        rw [ih, List.count_cons_of_ne (Ne.symm hvw), List.count_cons_of_ne (Ne.symm hvw)]
      split_ifs with hcount
      · rw [List.mem_cons, or_iff_right hvw]
        exact hrest
      · exact hrest

/-- The versions of a module after they were sorted. -/
def sortedNames (arguments : List VersionArguments) : List Version :=
  (sortByCachedKey VersionArguments.name arguments).map VersionArguments.name

theorem perm_sortedNames (arguments : List VersionArguments) :
    (sortedNames arguments).Perm (arguments.map VersionArguments.name) :=
  (perm_sortByCachedKey VersionArguments.name arguments).map _

theorem pairwise_sortedNames (arguments : List VersionArguments) :
    (sortedNames arguments).Pairwise (· ≤ ·) := by
  rw [sortedNames, List.pairwise_map]
  exact pairwise_sortByCachedKey VersionArguments.name arguments

/-- The names in ascending order are determined by the names. -/
theorem eq_sortedNames {arguments : List VersionArguments} {names : List Version}
    (hperm : names.Perm (arguments.map VersionArguments.name))
    (hsorted : names.Pairwise fun a b => Version.cmp a b ≠ .gt) :
    names = sortedNames arguments := by
  have hle : names.Pairwise (· ≤ ·) := hsorted.imp fun h => Version.cmp_ne_gt_iff.mp h
  exact (hperm.trans (perm_sortedNames arguments).symm).eq_of_pairwise
    (fun a b _ _ hab hba => le_antisymm hab hba) hle (pairwise_sortedNames arguments)

/-- The duplicates are the versions that two texts denote. -/
theorem mem_duplicates_sortedNames_iff {texts : List (List Char)}
    {arguments : List VersionArguments}
    (h : List.Forall₂ (fun text argument => Version.fromStr text = .ok argument.name) texts
      arguments) {v : Version} :
    v ∈ duplicates [] (sortedNames arguments) ↔
      2 ≤ texts.countP fun text => Version.fromStr text = .ok v := by
  have hcount : texts.countP (fun text => Version.fromStr text = .ok v) =
      (arguments.map VersionArguments.name).count v := by
    induction h with
    | nil => rfl
    | @cons text argument texts arguments htext _ ih =>
      rw [List.countP_cons, List.map_cons, List.count_cons, ih, htext]
      simp only [Except.ok.injEq, decide_eq_true_eq, beq_iff_eq]
  rw [mem_duplicates_iff, hcount, List.count_nil, (perm_sortedNames arguments).count_eq]
  omega

end ModuleAttributes

open ModuleAttributes in
/-- **Parsing, display and order of versions fit together**: texts are read as the version that
they denote, and sorting and duplicates of accepted texts are determined by the versions. -/
theorem versions_fit_together :
    (∀ v : Version, v.IsU64 → Version.fromStr v.display.toList = .ok v) ∧
      (∀ s v, Version.fromStr s = .ok v → ∀ v' : Version, v'.Denotes s ↔ v' = v) ∧
      IsStrictTotalOrder Version (fun a b => Version.cmp a b = .lt) ∧
      (∀ a b, Version.cmp a b = .eq ↔ a = b) ∧
      (∀ a b : Version, Version.cmp a b = .lt ↔ a.Precedes b) ∧
      ∀ texts arguments, List.Forall₂ (fun text argument =>
          Version.fromStr text = .ok (VersionArguments.name argument)) texts arguments →
        (∀ names : List Version, names = sortedNames arguments ↔
          names.Perm (arguments.map VersionArguments.name) ∧
            names.Pairwise fun a b => Version.cmp a b ≠ .gt) ∧
        ∀ v, v ∈ duplicates [] (sortedNames arguments) ↔
          2 ≤ texts.countP fun text => Version.fromStr text = .ok v := by
  refine ⟨fun v => Version.fromStr_display, ?_, Version.isStrictTotalOrder_cmp,
    fun a b => Version.cmp_eq_eq_iff, fun a b => Version.cmp_eq_lt_iff, ?_⟩
  · intro s v h v'
    have hdenotes := Version.denotes_of_fromStr h
    exact ⟨fun h' => h'.eq hdenotes, fun heq => heq ▸ hdenotes⟩
  · intro texts arguments h
    refine ⟨fun names => ⟨?_, fun hsorted => eq_sortedNames hsorted.1 hsorted.2⟩,
      fun v => mem_duplicates_sortedNames_iff h⟩
    rintro rfl
    exact ⟨perm_sortedNames arguments,
      (pairwise_sortedNames arguments).imp fun h => Version.cmp_ne_gt_iff.mpr h⟩

end VersionedMacros

end StackableOperator
