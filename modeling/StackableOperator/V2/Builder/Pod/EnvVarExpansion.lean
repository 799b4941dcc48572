import Mathlib
import StackableOperator.V2.Builder.Pod.EnvVarOrder
import StackableOperator.V2.Builder.Pod.EnvVarReferences

/-!
# The expansion of sorted environment variables

Kubernetes goes through the environment variables of a container in their order. In a value it
replaces the references to variables that it has passed, and leaves all others as they are.

The order of `EnvVarSet.toVec` respects the references that the resolver finds. It does not find
those to variables with a `$$` in their name. So Kubernetes expands all references of the variables
whose closure can be computed, and of those that they reference, unless such a name is in the way
(`expandsReferences_iff`).
-/

namespace StackableOperator

namespace V2

namespace EnvVarSet

open Relation

variable {self : EnvVarSet} {a b c : EnvVar}

/-- To expand one variable, Kubernetes looks up another variable of the set. -/
def LooksUp (self : EnvVarSet) (a b : EnvVar) : Prop :=
  ∃ value, a.value = some value ∧ b ∈ self.values ∧ b.name ∈ lookedUpNames none value.toList

/-- When Kubernetes comes to the variable, it has passed one of this name. -/
def IsExpandedAt (vec : List EnvVar) (a : EnvVar) (name : String) : Prop :=
  ∃ front rest, vec = front ++ a :: rest ∧ name ∈ front.map EnvVar.name

/-- **What the order is for**: the list has every variable of the set once and under its own name. A
variable whose closure can be computed comes after all variables that it references, directly or
transitively, and all of these references are expanded. -/
structure ExpandsReferences (envVars : EnvVarSet) : Prop where
  perm : envVars.toVec.Perm envVars.values
  nodup : (envVars.toVec.map EnvVar.name).Nodup
  get_eq_some_iff : ∀ name envVar,
    envVars.get name = some envVar ↔ envVar ∈ envVars.toVec ∧ envVar.name = name.1
  before : ∀ a ∈ envVars.values, (envVars.calculateClosure a).isSome = true →
    ∀ b, TransGen envVars.LooksUp a b → [b, a].Sublist envVars.toVec
  expanded : ∀ a ∈ envVars.values, (envVars.calculateClosure a).isSome = true →
    ∀ b c, ReflTransGen envVars.LooksUp a b → envVars.LooksUp b c →
      IsExpandedAt envVars.toVec b c.name

/-- The names that a variable is sorted by: its own one, and those of its closure, if any. -/
def keyNames (self : EnvVarSet) (a : EnvVar) : Set String :=
  {x | x = a.name ∨ self.Resolvable a ∧ ∃ b, TransGen self.References a b ∧ b.name = x}

/-- One variable is sorted before another one: the greatest name in which their keys differ belongs
to the latter. -/
def Precedes (self : EnvVarSet) (b a : EnvVar) : Prop :=
  ∃ x ∈ self.keyNames a, x ∉ self.keyNames b ∧
    ∀ y, x < y → (y ∈ self.keyNames b ↔ y ∈ self.keyNames a)

/-! ### Keys -/

theorem mem_sortKey_iff {x : String} : x ∈ self.sortKey a ↔ x ∈ self.keyNames a := by
  by_cases h : self.Resolvable a
  · obtain ⟨names, hkey, hmem⟩ := h.exists_sortKey_eq
    rw [hkey, BTreeSet.mem_descending, hmem]
    simp [keyNames, h]
  · rw [sortKey_eq_of_not_resolvable h]
    simp [keyNames, h]

theorem pairwise_sortKey (self : EnvVarSet) (a : EnvVar) : (self.sortKey a).Pairwise (· > ·) := by
  by_cases h : self.Resolvable a
  · obtain ⟨names, hkey, -⟩ := h.exists_sortKey_eq
    rw [hkey]
    exact names.pairwise_descending
  · rw [sortKey_eq_of_not_resolvable h]
    exact List.pairwise_singleton _ _

theorem sortKey_lt_iff : self.sortKey b < self.sortKey a ↔ self.Precedes b a := by
  rw [lt_iff_exists_greatest_difference (self.pairwise_sortKey b) (self.pairwise_sortKey a)]
  simp only [mem_sortKey_iff, Precedes]

/-- The order of the list. -/
theorem before_iff_precedes (ha : a ∈ self.values) (hb : b ∈ self.values) :
    [b, a].Sublist self.toVec ↔ self.Precedes b a := by
  by_cases hab : a = b
  · subst hab
    refine iff_of_false (fun hsub => ?_) fun ⟨x, hx, hnot, _⟩ => hnot hx
    have hnodup : self.toVec.Nodup := self.nodup_map_name_toVec.of_map
    exact absurd (List.Nodup.sublist hsub hnodup) (by simp)
  · rw [before_iff ha hb hab, sortKey_lt_iff]

/-! ### References and what is looked up -/

theorem LooksUp.mem_values (h : self.LooksUp a b) : b ∈ self.values := by
  obtain ⟨_, -, hb, -⟩ := h
  exact hb

theorem mem_values_of_reflTransGen (ha : a ∈ self.values)
    (h : ReflTransGen self.LooksUp a b) : b ∈ self.values := by
  induction h with
  | refl => exact ha
  | tail _ h _ => exact h.mem_values

/-- The resolver finds what Kubernetes looks up, up to names with `$$`. -/
theorem LooksUp.references (h : self.LooksUp a b) (hname : ¬ HasEscape b.name) :
    self.References a b := by
  obtain ⟨value, hvalue, hb, hlookup⟩ := h
  rw [references_iff_of_value hvalue]
  have hfound : b.name ∈ (self.referencedEnvVars value).map EnvVar.name :=
    mem_map_name_referencedEnvVars_iff.mpr ⟨List.mem_map_of_mem hb, b.name, hlookup,
      withoutEscapes_eq_self_iff.mpr hname⟩
  obtain ⟨b', hb', heq⟩ := List.mem_map.mp hfound
  have hmem : b' ∈ self.values :=
    References.mem_values ((references_iff_of_value hvalue).mpr hb')
  exact eq_of_name_eq hmem hb heq ▸ hb'

/-- Kubernetes has passed a variable of the set iff it comes before. -/
theorem isExpandedAt_iff (hb : b ∈ self.values) :
    IsExpandedAt self.toVec a b.name ↔ [b, a].Sublist self.toVec := by
  constructor
  · rintro ⟨front, rest, heq, hmem⟩
    obtain ⟨b', hb', hname⟩ := List.mem_map.mp hmem
    have hvalues : b' ∈ self.values :=
      self.perm_toVec.mem_iff.mp (heq ▸ List.mem_append_left _ hb')
    obtain rfl := eq_of_name_eq hvalues hb hname
    rw [heq]
    exact (List.singleton_sublist.mpr hb').append (List.singleton_sublist.mpr List.mem_cons_self)
  · intro h
    rw [← List.singleton_append, List.append_sublist_iff] at h
    obtain ⟨front, rest, heq, hfront, hrest⟩ := h
    obtain ⟨mid, back, rfl⟩ := List.append_of_mem (List.singleton_sublist.mp hrest)
    refine ⟨front ++ mid, back, by rw [heq, List.append_assoc], ?_⟩
    exact List.mem_map_of_mem (List.mem_append_left _ (List.singleton_sublist.mp hfront))

/-! ### When all references are expanded -/

/-- The references in the way: those to a variable with a `$$` in its name, and those of a variable
whose closure cannot be computed. If a variable whose closure can be computed leads to one, the
referenced variable is sorted first nevertheless. -/
def SortsEscapes (self : EnvVarSet) : Prop :=
  ∀ a ∈ self.values, (self.calculateClosure a).isSome = true →
    ∀ b c, ReflTransGen self.LooksUp a b → self.LooksUp b c →
      HasEscape c.name ∨ self.calculateClosure b = none → self.Precedes c b

/-- On the way from a variable whose closure can be computed, each reference is sorted. -/
theorem SortsEscapes.precedes (h : self.SortsEscapes) (ha : a ∈ self.values)
    (hclosure : (self.calculateClosure a).isSome = true) (hab : ReflTransGen self.LooksUp a b)
    (hbc : self.LooksUp b c) : self.Precedes c b := by
  by_cases hway : HasEscape c.name ∨ self.calculateClosure b = none
  · exact h a ha hclosure b c hab hbc hway
  · rw [not_or] at hway
    have hr : self.Resolvable b :=
      isSome_calculateClosure_iff.mp (Option.isSome_iff_ne_none.mpr hway.2)
    exact sortKey_lt_iff.mp
      (hr.sortKey_lt (mem_values_of_reflTransGen ha hab) (.single (hbc.references hway.1)))

/-- What is referenced transitively is sorted before. -/
theorem SortsEscapes.sortKey_lt (h : self.SortsEscapes) (ha : a ∈ self.values)
    (hclosure : (self.calculateClosure a).isSome = true) (hab : TransGen self.LooksUp a b) :
    self.sortKey b < self.sortKey a := by
  induction hab with
  | single hab => exact sortKey_lt_iff.mpr (h.precedes ha hclosure .refl hab)
  | tail hab hbc ih =>
    exact (sortKey_lt_iff.mpr (h.precedes ha hclosure hab.to_reflTransGen hbc)).trans ih

theorem SortsEscapes.expandsReferences (h : self.SortsEscapes) : self.ExpandsReferences where
  perm := self.perm_toVec
  nodup := self.nodup_map_name_toVec
  get_eq_some_iff := self.get_eq_some_iff_mem_toVec
  before a ha hclosure b hab := by
    obtain ⟨c, -, hcb⟩ := TransGen.tail'_iff.mp hab
    exact (before_iff_precedes ha hcb.mem_values).mpr
      (sortKey_lt_iff.mp (h.sortKey_lt ha hclosure hab))
  expanded a ha hclosure b c hab hbc :=
    (isExpandedAt_iff hbc.mem_values).mpr ((before_iff_precedes
      (mem_values_of_reflTransGen ha hab) hbc.mem_values).mpr (h.precedes ha hclosure hab hbc))

/-- Without names with a `$$`, no reference is in the way. -/
theorem sortsEscapes_of_forall_not_hasEscape (h : ∀ x ∈ self.names, ¬ HasEscape x) :
    self.SortsEscapes := by
  intro a ha hclosure b c hab hbc hway
  have hname : ∀ {d}, d ∈ self.values → ¬ HasEscape d.name := fun hd =>
    h _ (List.mem_map_of_mem hd)
  have hr : self.Resolvable a := isSome_calculateClosure_iff.mp hclosure
  -- then Kubernetes looks up what the resolver finds, and the closure of `b` can be computed, too
  have hreferences : ReflTransGen self.References a b := by
    clear hbc hway
    induction hab with
    | refl => exact .refl
    | tail _ hbc ih => exact ih.tail (hbc.references (hname hbc.mem_values))
  have hrb : self.Resolvable b := by
    obtain rfl | hab := reflTransGen_iff_eq_or_transGen.mp hreferences
    · exact hr
    · exact hr.of_transGen hab
  obtain hescape | hnone := hway
  · exact absurd hescape (hname hbc.mem_values)
  · have hsome := isSome_calculateClosure_iff.mpr hrb
    rw [hnone] at hsome
    cases hsome

/-- **Exactly when Kubernetes expands all references** of the variables whose closure can be
computed, and of all variables that these reference: iff the references that are in the way are
sorted nevertheless. In particular it does if no name has a `$$`. -/
theorem expandsReferences_iff (envVars : EnvVarSet) :
    (envVars.ExpandsReferences ↔ envVars.SortsEscapes) ∧
      ((∀ x ∈ envVars.names, ¬ HasEscape x) → envVars.ExpandsReferences) := by
  refine ⟨⟨fun h a ha hclosure b c hab hbc _ => ?_, fun h => h.expandsReferences⟩,
    fun h => (sortsEscapes_of_forall_not_hasEscape h).expandsReferences⟩
  rw [← before_iff_precedes (mem_values_of_reflTransGen ha hab) hbc.mem_values,
    ← isExpandedAt_iff hbc.mem_values]
  exact h.expanded a ha hclosure b c hab hbc

/-- A variable that references one with a `$$` in its name. -/
def dollarEnvVars : EnvVarSet :=
  new.withValues [(⟨"A", isEnvVarName_a⟩, "$(A$$B)"), (⟨"A$$B", isEnvVarName_escape⟩, "v")]

/-- The reference is not found, so that the closure is empty, and `A` comes first. -/
theorem dollarEnvVars_not_expandsReferences :
    dollarEnvVars.toVec = [⟨"A", some "$(A$$B)", none⟩, ⟨"A$$B", some "v", none⟩] ∧
      ¬ dollarEnvVars.ExpandsReferences := by
  refine ⟨by decide, fun h => ?_⟩
  have hlookup : dollarEnvVars.LooksUp ⟨"A", some "$(A$$B)", none⟩ ⟨"A$$B", some "v", none⟩ :=
    ⟨"$(A$$B)", rfl, by decide, by decide⟩
  exact absurd (h.before _ (by decide) (by decide) _ (.single hlookup)) (by decide)

end EnvVarSet

end V2

end StackableOperator
