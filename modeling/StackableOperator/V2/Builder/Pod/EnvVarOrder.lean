import Mathlib
import StackableOperator.V2.Builder.Pod.Container

/-!
# The order of environment variables

Kubernetes expands a reference to an environment variable only if the referenced variable is
defined before. `EnvVarSet.toVec` therefore sorts the variables by their closures:
`referenced_before_referencing` says that a variable comes after everything that the resolver finds
referenced if its closure can be computed. What Kubernetes looks up may be something else: see
`expandsReferences_iff`.

The closure of a variable on a reference cycle, or at the start of a long chain of references,
cannot be computed. Such a variable is sorted by its name alone, and it depends on the names
whether it comes after the variables that it references
(`referenced_before_referencing_iff`).
-/

namespace StackableOperator

namespace V2

namespace EnvVarSet

open Relation

variable {self : EnvVarSet} {a b : EnvVar}

/-- The references of a variable can be followed: ten references in a row only lead to variables
without a literal value. -/
def Resolvable (self : EnvVarSet) (a : EnvVar) : Prop :=
  ∀ b, Walk self.References envVarDependencyResolverMaxRecursionDepth a b → b.value = none

theorem isSome_calculateClosure_iff :
    (self.calculateClosure a).isSome = true ↔ self.Resolvable a :=
  isSome_calculateClosureRec_iff

theorem Resolvable.forall_walk (h : self.Resolvable a) :
    ∀ b, Walk self.References envVarDependencyResolverMaxRecursionDepth a b →
      ∀ c, ¬ self.References b c :=
  fun b hab _ => not_references_of_value_eq_none (h b hab)

/-- A variable whose references can be followed does not reach a cycle. -/
theorem Resolvable.not_transGen_self (h : self.Resolvable a)
    (hab : ReflTransGen self.References a b) : ¬ TransGen self.References b b :=
  not_transGen_self_of_forall_walk h.forall_walk hab

/-- If the references of a variable can be followed, so can those of the referenced ones. -/
theorem Resolvable.of_transGen (h : self.Resolvable a) (hab : TransGen self.References a b) :
    self.Resolvable b := by
  intro c hbc
  obtain ⟨n, hwalk⟩ := transGen_iff_exists_walk.mp hab
  exact absurd (hwalk.append hbc) (not_walk_of_forall_walk h.forall_walk (by omega))

/-! ### Sort keys -/

/-- The key of a variable whose references can be followed lists its closure and its name. -/
theorem Resolvable.exists_sortKey_eq (h : self.Resolvable a) :
    ∃ names : BTreeSet String, self.sortKey a = names.descending ∧
      ∀ x, x ∈ names ↔ x = a.name ∨ ∃ b, TransGen self.References a b ∧ b.name = x := by
  obtain ⟨closure, hclosure⟩ := Option.isSome_iff_exists.mp (isSome_calculateClosure_iff.mpr h)
  refine ⟨closure.insert a.name, ?_, fun x => ?_⟩
  · rw [sortKey, hclosure]
  · rw [BTreeSet.mem_insert_iff, mem_calculateClosureRec_iff hclosure]

/-- The key of every other variable is its name. -/
theorem sortKey_eq_of_not_resolvable (h : ¬ self.Resolvable a) : self.sortKey a = [a.name] := by
  have hnone : self.calculateClosure a = none := by
    rw [← Option.not_isSome_iff_eq_none, isSome_calculateClosure_iff]
    exact h
  rw [sortKey, hnone]

/-- Every variable occurs in its own key. -/
theorem name_mem_sortKey : a.name ∈ self.sortKey a := by
  by_cases h : self.Resolvable a
  · obtain ⟨names, hkey, hmem⟩ := h.exists_sortKey_eq
    rw [hkey, BTreeSet.mem_descending, hmem]
    exact Or.inl rfl
  · rw [sortKey_eq_of_not_resolvable h]
    exact List.mem_singleton_self a.name

/-- What occurs in the key of a variable is the variable or referenced by it. -/
theorem eq_or_transGen_of_mem_sortKey (ha : a ∈ self.values) (hb : b ∈ self.values)
    (h : b.name ∈ self.sortKey a) : b = a ∨ self.Resolvable a ∧ TransGen self.References a b := by
  by_cases hr : self.Resolvable a
  · obtain ⟨names, hkey, hmem⟩ := hr.exists_sortKey_eq
    rw [hkey, BTreeSet.mem_descending, hmem] at h
    rcases h with h | ⟨c, hac, h⟩
    · exact Or.inl (eq_of_name_eq hb ha h)
    · obtain rfl := eq_of_name_eq (mem_values_of_transGen hac) hb h
      exact Or.inr ⟨hr, hac⟩
  · rw [sortKey_eq_of_not_resolvable hr, List.mem_singleton] at h
    exact Or.inl (eq_of_name_eq hb ha h)

/-- **Keys are unique.** -/
theorem sortKey_ne (ha : a ∈ self.values) (hb : b ∈ self.values) (hab : a ≠ b) :
    self.sortKey a ≠ self.sortKey b := by
  intro hkey
  have hb_mem := eq_or_transGen_of_mem_sortKey ha hb (hkey ▸ name_mem_sortKey)
  have ha_mem := eq_or_transGen_of_mem_sortKey hb ha (hkey ▸ name_mem_sortKey)
  obtain ⟨hr, hforth⟩ := hb_mem.resolve_left hab.symm
  obtain ⟨-, hback⟩ := ha_mem.resolve_left hab
  exact hr.not_transGen_self .refl (hforth.trans hback)

/-- **Keys respect references**: a referenced variable has a smaller key. -/
theorem Resolvable.sortKey_lt (h : self.Resolvable a) (ha : a ∈ self.values)
    (hab : TransGen self.References a b) : self.sortKey b < self.sortKey a := by
  obtain ⟨namesA, hkeyA, hmemA⟩ := h.exists_sortKey_eq
  obtain ⟨namesB, hkeyB, hmemB⟩ := (h.of_transGen hab).exists_sortKey_eq
  rw [hkeyA, hkeyB]
  refine BTreeSet.descending_lt_of_ssubset (a := a.name) ?_ ((hmemA _).mpr (Or.inl rfl)) ?_
  · intro x hx
    rcases (hmemB x).mp hx with rfl | ⟨c, hbc, rfl⟩
    · exact (hmemA _).mpr (Or.inr ⟨b, hab, rfl⟩)
    · exact (hmemA _).mpr (Or.inr ⟨c, hab.trans hbc, rfl⟩)
  · -- otherwise `a` references itself
    intro hx
    obtain ⟨c, hac, hname⟩ : ∃ c, TransGen self.References a c ∧ c.name = a.name := by
      rcases (hmemB _).mp hx with hname | ⟨c, hbc, hname⟩
      · exact ⟨b, hab, hname.symm⟩
      · exact ⟨c, hab.trans hbc, hname⟩
    obtain rfl := eq_of_name_eq (mem_values_of_transGen hac) ha hname
    exact h.not_transGen_self .refl hac

/-- A variable comes before another one iff its key is smaller. -/
theorem before_iff (ha : a ∈ self.values) (hb : b ∈ self.values) (hab : a ≠ b) :
    [b, a].Sublist self.toVec ↔ self.sortKey b < self.sortKey a :=
  pair_sublist_sortByCachedKey_iff hb ha (sortKey_ne hb ha hab.symm)

/-! ### Main results -/

theorem perm_toVec (self : EnvVarSet) : self.toVec.Perm self.values :=
  perm_sortByCachedKey _ _

theorem nodup_map_name_toVec (self : EnvVarSet) : (self.toVec.map EnvVar.name).Nodup :=
  (self.perm_toVec.map EnvVar.name).nodup_iff.mpr self.nodup_map_name_values

/-- The list has every variable of the set under its own name. -/
theorem get_eq_some_iff_mem_toVec (self : EnvVarSet) (name : EnvVarName) (envVar : EnvVar) :
    self.get name = some envVar ↔ envVar ∈ self.toVec ∧ envVar.name = name.1 := by
  rw [self.perm_toVec.mem_iff]
  constructor
  · intro h
    exact ⟨mem_values_iff.mpr ⟨name, h⟩, self.name_eq name envVar h⟩
  · rintro ⟨hmem, hname⟩
    obtain ⟨name', hname'⟩ := mem_values_iff.mp hmem
    have heq : name' = name :=
      Subtype.ext ((self.name_eq name' envVar hname').symm.trans hname)
    exact heq ▸ hname'

/-- **References that can be resolved are ordered**: if the closure of a variable can be computed,
all variables that it references, directly or transitively, come before it. -/
theorem referenced_before_referencing (ha : a ∈ self.values) (hab : TransGen self.References a b)
    (hclosure : (self.calculateClosure a).isSome = true) : [b, a].Sublist self.toVec := by
  have hr : self.Resolvable a := isSome_calculateClosure_iff.mp hclosure
  have hne : a ≠ b := by
    rintro rfl
    exact hr.not_transGen_self .refl hab
  exact (before_iff ha (mem_values_of_transGen hab) hne).mpr (hr.sortKey_lt ha hab)

/-- A variable that references nothing reaches only itself. -/
theorem not_transGen_of_referencedEnvVars_eq_nil {c : EnvVar} {value : String}
    (hvalue : b.value = some value) (h : self.referencedEnvVars value = []) :
    ¬ TransGen self.References b c := by
  intro hbc
  obtain ⟨d, hbd, -⟩ := TransGen.head'_iff.mp hbc
  rw [references_iff_of_value hvalue, h] at hbd
  exact List.not_mem_nil hbd

/-- A variable that references nothing does not reach a cycle. -/
theorem not_transGen_self_of_referencedEnvVars_eq_nil {c : EnvVar} {value : String}
    (hvalue : b.value = some value) (h : self.referencedEnvVars value = [])
    (hbc : ReflTransGen self.References b c) : ¬ TransGen self.References c c := by
  have hnot (d : EnvVar) : ¬ TransGen self.References b d :=
    not_transGen_of_referencedEnvVars_eq_nil hvalue h
  rcases reflTransGen_iff_eq_or_transGen.mp hbc with rfl | hbc
  · exact hnot c
  · exact absurd hbc (hnot c)

/-- **The order of references in general.** Let `a` reference `b`, directly or transitively, and
let `b` neither reference `a` nor reach a cycle. Then `b` comes before `a` iff the references of
`a` can be followed, or else the name of `a` is greater than the name of `b` and, if the
references of `b` can be followed, than the names of all variables that `b` references. -/
theorem referenced_before_referencing_iff {envVars : EnvVarSet} {a b : EnvVar}
    (ha : a ∈ envVars.values) (hb : b ∈ envVars.values) (hab : TransGen envVars.References a b)
    (hba : ¬ TransGen envVars.References b a)
    (hcycle : ∀ c, ReflTransGen envVars.References b c → ¬ TransGen envVars.References c c) :
    [b, a].Sublist envVars.toVec ↔
      envVars.Resolvable a ∨ b.name < a.name ∧
        (envVars.Resolvable b → ∀ c, TransGen envVars.References b c → c.name < a.name) := by
  have hne : a ≠ b := by
    rintro rfl
    exact hcycle a .refl hab
  rw [before_iff ha hb hne]
  by_cases hra : envVars.Resolvable a
  · simp only [hra, true_or, iff_true]
    exact hra.sortKey_lt ha hab
  · simp only [hra, false_or]
    rw [sortKey_eq_of_not_resolvable hra]
    by_cases hrb : envVars.Resolvable b
    · obtain ⟨names, hkey, hmem⟩ := hrb.exists_sortKey_eq
      have hnot : a.name ∉ names := by
        rw [hmem]
        rintro (hname | ⟨c, hbc, hname⟩)
        · exact hne (eq_of_name_eq ha hb hname)
        · obtain rfl := eq_of_name_eq (mem_values_of_transGen hbc) ha hname
          exact hba hbc
      rw [hkey, BTreeSet.descending_lt_singleton_iff hnot]
      simp only [hmem, forall_eq_or_imp, hrb, true_imp_iff, forall_exists_index, and_imp,
        forall_apply_eq_imp_iff₂]
    · rw [sortKey_eq_of_not_resolvable hrb, List.cons_lt_cons_iff]
      simp [hrb]

/-- A search path that extends itself and references another variable. -/
def pathEnvVars (path : EnvVarName) : EnvVarSet :=
  new.withValues [(path, "$(" ++ path.1 ++ "):$(TOOLS)"), (⟨"TOOLS", by decide⟩, "/tools")]

theorem referenced_before_referencing_iff_pathEnvVars :
    [⟨"TOOLS", some "/tools", none⟩, ⟨"XPATH", some "$(XPATH):$(TOOLS)", none⟩].Sublist
      (pathEnvVars ⟨"XPATH", by decide⟩).toVec := by
  have htools (c : EnvVar) : ¬ TransGen (pathEnvVars ⟨"XPATH", by decide⟩).References
      ⟨"TOOLS", some "/tools", none⟩ c :=
    not_transGen_of_referencedEnvVars_eq_nil rfl (by decide)
  refine (referenced_before_referencing_iff (by decide) (by decide)
    (.single ⟨"$(XPATH):$(TOOLS)", rfl, by decide⟩) (htools _)
    (fun c => not_transGen_self_of_referencedEnvVars_eq_nil rfl (by decide))).mpr
    (Or.inr ⟨by decide, ?_⟩)
  intro _ c hc
  exact absurd hc (htools c)

/-- A self-reference hides the other references: `PATH` comes before `TOOLS`. -/
theorem not_referenced_before_referencing :
    ¬ ∀ (envVars : EnvVarSet) (a b : EnvVar), a ∈ envVars.values → b ∈ envVars.values →
      TransGen envVars.References a b → ¬ TransGen envVars.References b a →
      (∀ c, ReflTransGen envVars.References b c → ¬ TransGen envVars.References c c) →
      [b, a].Sublist envVars.toVec := by
  intro h
  have hbefore := h (pathEnvVars ⟨"PATH", by decide⟩) ⟨"PATH", some "$(PATH):$(TOOLS)", none⟩
    ⟨"TOOLS", some "/tools", none⟩ (by decide) (by decide)
    (.single ⟨"$(PATH):$(TOOLS)", rfl, by decide⟩)
    (not_transGen_of_referencedEnvVars_eq_nil rfl (by decide))
    (fun c => not_transGen_self_of_referencedEnvVars_eq_nil rfl (by decide))
  exact absurd hbefore (by decide)

end EnvVarSet

end V2

end StackableOperator
