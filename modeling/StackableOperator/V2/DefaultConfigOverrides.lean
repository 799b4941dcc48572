import Mathlib
import StackableOperator.V2.ConfigOverrides

/-!
# The default of config overrides

The default is a JSON merge patch without fields. It is applied like every other merge patch, and
a merge patch replaces a document that is no object. So the default leaves exactly the objects as
they are, and it is neutral where it meets objects.

For overrides `x` and a base document, the default below `x` meets the base document, and the one
above `x` meets the document that `x` leaves. `MeetsObjects` says in terms of the base document and
the steps of `x` when both are harmless: the base document is an object, or the steps forget that it
was none; and they leave an object. `default_identity_iff` has that this is enough, and that nothing
less is, as long as nothing is known of what JSON patches do.
-/

namespace StackableOperator

namespace Value

/-- `json!({})` -/
def emptyObject : Value := .objectOf ∅ fun _ => none

@[simp] theorem get?_emptyObject (k : String) : emptyObject.get? k = none := by
  rw [emptyObject, get?_objectOf, ite_self]

/-- The keys of a document are finitely many. -/
theorem finite_keys (doc : Value) : {k | (doc.get? k).isSome = true}.Finite := by
  cases doc with
  | object keys values =>
    exact keys.finite_toSet.subset fun k hk => mem_keys_iff.mpr hk
  | _ => exact Set.finite_empty.subset fun k hk => by cases hk

/-- There is a key that none of the documents has. -/
theorem exists_fresh (docs : List Value) : ∃ key, ∀ doc ∈ docs, doc.get? key = none := by
  have hinfinite : Infinite String :=
    .of_injective (fun n : ℕ => Nat.repr n) fun _ _ => Nat.repr_injective
  have hfinite : (⋃ doc ∈ docs, {k | (doc.get? k).isSome = true}).Finite :=
    (List.finite_toSet docs).biUnion fun doc _ => doc.finite_keys
  obtain ⟨key, hkey⟩ := hfinite.exists_notMem
  refine ⟨key, fun doc hdoc => ?_⟩
  by_contra hsome
  exact hkey (Set.mem_biUnion hdoc (Option.isSome_iff_ne_none.mpr hsome))

/-- Merging an empty object into an object changes nothing; anything else is replaced. -/
theorem IsDeepMerge.merge_emptyObject {merge : Value → Value → Value} (hmerge : IsDeepMerge merge)
    (doc : Value) : merge doc emptyObject = if doc.isObject then doc else emptyObject := by
  split_ifs with hdoc
  · refine eq_of_get?_eq (hmerge.isObject_merge hdoc rfl) hdoc fun k => ?_
    rw [hmerge.get?_merge hdoc rfl, get?_emptyObject, mergeField]
  · exact hmerge.otherwise (by rw [Bool.eq_false_of_not_eq_true hdoc, Bool.false_and])

/-- A merge patch results in an object iff it is one. -/
theorem IsDeepMerge.isObject_merge_iff {merge : Value → Value → Value}
    (hmerge : IsDeepMerge merge) {base patch : Value} :
    (merge base patch).isObject = true ↔ patch.isObject = true := by
  cases hboth : base.isObject && patch.isObject with
  | true =>
    obtain ⟨hbase, hpatch⟩ := (Bool.and_eq_true _ _).mp hboth
    exact iff_of_true (hmerge.isObject_merge hbase hpatch) hpatch
  | false => rw [hmerge.otherwise hboth]

end Value

namespace V2

namespace JsonConfigOverrides

variable {Patch : Type}

/-- `JsonConfigOverrides::default` -/
def empty : JsonConfigOverrides Patch := jsonMergePatch .emptyObject

theorem apply_empty (lib : JsonLibrary Patch) (hmerge : Value.IsDeepMerge lib.mergeFrom)
    (base : Value) : (empty : JsonConfigOverrides Patch).apply lib base =
      if base.isObject then base else .emptyObject := by
  rw [empty, apply, hmerge.merge_emptyObject]

/-- The default leaves exactly the objects as they are. -/
theorem apply_empty_eq_self_iff {lib : JsonLibrary Patch}
    (hmerge : Value.IsDeepMerge lib.mergeFrom) {doc : Value} :
    (empty : JsonConfigOverrides Patch).apply lib doc = doc ↔ doc.isObject = true := by
  rw [apply_empty lib hmerge]
  split_ifs with hdoc
  · exact iff_of_true rfl hdoc
  · refine iff_of_false ?_ hdoc
    rintro rfl
    exact hdoc rfl

/-! ### The steps of overrides -/

/-- An override that is no sequence. -/
inductive Step (Patch : Type) : Type
  | jsonMergePatch (patch : Value)
  | jsonPatch (patch : Patch)
  | userProvided (content : Value)

/-- What one step makes of a document. -/
def Step.apply (lib : JsonLibrary Patch) : Step Patch → Value → Value
  | jsonMergePatch patch, doc => lib.mergeFrom doc patch
  | jsonPatch patch, doc => (lib.patch doc patch).1
  | userProvided content, _ => content

mutual

/-- The steps of overrides, starting with the latest one; nested sequences are one sequence. -/
def steps : JsonConfigOverrides Patch → List (Step Patch)
  | jsonMergePatch patch => [.jsonMergePatch patch]
  | jsonPatch patch => [.jsonPatch patch]
  | userProvided content => [.userProvided content]
  | sequence patches => stepsAll patches

def stepsAll : List (JsonConfigOverrides Patch) → List (Step Patch)
  | [] => []
  | patch :: patches => patch.steps ++ stepsAll patches

end

/-- Take the steps, of which the last one comes first. -/
def run (lib : JsonLibrary Patch) (steps : List (Step Patch)) (doc : Value) : Value :=
  steps.foldr (Step.apply lib) doc

@[simp] theorem run_nil (lib : JsonLibrary Patch) (doc : Value) : run lib [] doc = doc := rfl

@[simp] theorem run_cons (lib : JsonLibrary Patch) (step : Step Patch) (l : List (Step Patch))
    (doc : Value) : run lib (step :: l) doc = step.apply lib (run lib l doc) := rfl

theorem run_append (lib : JsonLibrary Patch) (l l' : List (Step Patch)) (doc : Value) :
    run lib (l ++ l') doc = run lib l (run lib l' doc) :=
  List.foldr_append

mutual

/-- Applying overrides is taking their steps. -/
theorem run_steps (lib : JsonLibrary Patch) :
    ∀ (overrides : JsonConfigOverrides Patch) (doc : Value),
      run lib overrides.steps doc = overrides.apply lib doc
  | jsonMergePatch patch, doc => by rw [steps, apply, run_cons, run_nil, Step.apply]
  | jsonPatch patch, doc => by rw [steps, apply, run_cons, run_nil, Step.apply]
  | userProvided content, doc => by rw [steps, apply, run_cons, run_nil, Step.apply]
  | sequence patches, doc => by rw [steps, apply, run_stepsAll lib patches doc]

theorem run_stepsAll (lib : JsonLibrary Patch) :
    ∀ (patches : List (JsonConfigOverrides Patch)) (doc : Value),
      run lib (stepsAll patches) doc = applyRev lib patches doc
  | [], doc => by rw [stepsAll, applyRev, run_nil]
  | patch :: patches, doc => by
    rw [stepsAll, applyRev, run_append, run_stepsAll lib patches doc, run_steps lib patch]

end

/-- Only JSON patches ask the library what a patch does. -/
theorem run_eq_of_forall_ne_jsonPatch {lib lib' : JsonLibrary Patch}
    (hmerge : lib.mergeFrom = lib'.mergeFrom) {l : List (Step Patch)}
    (hl : ∀ patch, Step.jsonPatch patch ∉ l) (doc : Value) : run lib l doc = run lib' l doc := by
  induction l with
  | nil => rfl
  | cons step l ih =>
    rw [run_cons, run_cons, ih fun patch hmem => hl patch (List.mem_cons_of_mem _ hmem)]
    cases step with
    | jsonMergePatch patch => rw [Step.apply, Step.apply, hmerge]
    | jsonPatch patch => exact absurd List.mem_cons_self (hl patch)
    | userProvided content => rfl

/-! ### When the default is neutral -/

/-- The result of the step does not depend on the document. -/
def Step.IsConstant (lib : JsonLibrary Patch) : Step Patch → Prop
  | jsonMergePatch patch => patch.isObject = false
  | jsonPatch patch => ∀ doc doc', (lib.patch doc patch).1 = (lib.patch doc' patch).1
  | userProvided _ => True

/-- The steps do not tell an empty object from a base document that is no object: one of them is
constant; or they begin with merge patches (at the end of the list), and wherever the first of them
has a `null` at its top level, which removes a field of an object but is taken over into anything
else, a later one of them has the same key. -/
def IsForgetful (lib : JsonLibrary Patch) (l : List (Step Patch)) : Prop :=
  (∃ step ∈ l, step.IsConstant lib) ∨
  ∃ (later : List (Step Patch)) (patches : List Value) (first : Value),
    l = later ++ (patches ++ [first]).map .jsonMergePatch ∧
    ∀ k, first.get? k = some .null → ∃ patch ∈ patches, patch.get? k ≠ none

/-- The steps leave an object: the latest merge patch or document of the user is one, or there is
none and the base document is one, and the JSON patches after it keep objects objects; or one of
these JSON patches makes an object of every document. -/
def LeavesObject (lib : JsonLibrary Patch) (base : Value) : List (Step Patch) → Prop
  | [] => base.isObject = true
  | .jsonMergePatch patch :: _ => patch.isObject = true
  | .jsonPatch patch :: l =>
    (∀ doc, (lib.patch doc patch).1.isObject = true) ∨
    (∀ doc, doc.isObject = true → (lib.patch doc patch).1.isObject = true) ∧ LeavesObject lib base l
  | .userProvided content :: _ => content.isObject = true

/-- The default meets objects below and above the overrides, or has no effect on the outcome. -/
structure MeetsObjects (lib : JsonLibrary Patch) (overrides : JsonConfigOverrides Patch)
    (base : Value) : Prop where
  below : base.isObject = true ∨ IsForgetful lib overrides.steps
  above : LeavesObject lib base overrides.steps

/-- Steps that leave an object result in one. -/
theorem LeavesObject.isObject_run {lib : JsonLibrary Patch}
    (hmerge : Value.IsDeepMerge lib.mergeFrom) {base : Value} {l : List (Step Patch)}
    (h : LeavesObject lib base l) : (run lib l base).isObject = true := by
  induction l with
  | nil => exact h
  | cons step l ih =>
    cases step with
    | jsonMergePatch patch => exact hmerge.isObject_merge_iff.mpr h
    | jsonPatch patch =>
      obtain halways | ⟨hkeeps, hrest⟩ := h
      · exact halways _
      · exact hkeeps _ (ih hrest)
    | userProvided content => exact h

/-- If nothing is known of JSON patches, the latest step decides, and it is none. -/
theorem leavesObject_of_forall_patch {mergeFrom : Value → Value → Value}
    (hmerge : Value.IsDeepMerge mergeFrom) {base : Value} {l : List (Step Patch)}
    (h : ∀ patch, (run ⟨mergeFrom, patch⟩ l base).isObject = true)
    (patch : Value → Patch → Value × Option String) : LeavesObject ⟨mergeFrom, patch⟩ base l := by
  cases l with
  | nil => exact h patch
  | cons step l =>
    cases step with
    | jsonMergePatch p => exact hmerge.isObject_merge_iff.mp (h patch)
    | jsonPatch p => cases h fun _ _ => (.null, none)
    | userProvided content => exact h patch

/-! ### Merge patches on a document that is no object -/

section Patches

variable {lib : JsonLibrary Patch} (hmerge : Value.IsDeepMerge lib.mergeFrom) {base : Value}
  (hbase : base.isObject = false)
include hmerge hbase

/-- What merge patches leave of the difference between an empty object and a base document that is
no object: where the first one has a `null` and no later one has the key, the `null` is still
there. -/
theorem get?_run_mergePatches {first : Value} (hfirst : first.isObject = true)
    {patches : List Value} (hpatches : ∀ patch ∈ patches, patch.isObject = true) :
    (run lib ((patches ++ [first]).map .jsonMergePatch) base).isObject = true ∧
    (run lib ((patches ++ [first]).map .jsonMergePatch) .emptyObject).isObject = true ∧
    ∀ k, (first.get? k = some .null ∧ (∀ patch ∈ patches, patch.get? k = none) ∧
        (run lib ((patches ++ [first]).map .jsonMergePatch) base).get? k = some .null ∧
        (run lib ((patches ++ [first]).map .jsonMergePatch) .emptyObject).get? k = none) ∨
      (first.get? k = some .null → ∃ patch ∈ patches, patch.get? k ≠ none) ∧
        (run lib ((patches ++ [first]).map .jsonMergePatch) base).get? k =
          (run lib ((patches ++ [first]).map .jsonMergePatch) .emptyObject).get? k := by
  induction patches with
  | nil =>
    -- the first one replaces the base document, and is merged into the empty object
    have hreplaced : lib.mergeFrom base first = first :=
      hmerge.otherwise (by rw [hbase, Bool.false_and])
    simp only [List.nil_append, List.map_cons, List.map_nil, run_cons, run_nil, Step.apply,
      hreplaced]
    refine ⟨hfirst, hmerge.isObject_merge rfl hfirst, fun k => ?_⟩
    rw [hmerge.get?_merge rfl hfirst, Value.get?_emptyObject]
    cases hk : first.get? k with
    | none => exact .inr ⟨nofun, rfl⟩
    | some v =>
      cases v with
      | null => exact .inl ⟨rfl, by simp, rfl, rfl⟩
      | _ => exact .inr ⟨nofun, rfl⟩
  | cons patch patches ih =>
    obtain ⟨hpatch, hrest⟩ := List.forall_mem_cons.mp hpatches
    obtain ⟨hdoc, hdoc', hkeys⟩ := ih hrest
    simp only [List.cons_append, List.map_cons, run_cons, Step.apply]
    refine ⟨hmerge.isObject_merge hdoc hpatch, hmerge.isObject_merge hdoc' hpatch, fun k => ?_⟩
    rw [hmerge.get?_merge hdoc hpatch, hmerge.get?_merge hdoc' hpatch]
    obtain ⟨hnull, hnone, hold, hold'⟩ | ⟨hcovered, hsame⟩ := hkeys k
    · rw [hold, hold']
      cases hk : patch.get? k with
      | none => exact .inl ⟨hnull, List.forall_mem_cons.mpr ⟨hk, hnone⟩, rfl, rfl⟩
      | some v =>
        -- the `null` is replaced by the same value as a missing field
        refine .inr ⟨fun _ => ⟨patch, List.mem_cons_self, by simp [hk]⟩, ?_⟩
        have hreplaced : lib.mergeFrom .null v = v := hmerge.otherwise rfl
        simp only [Value.mergeField, hreplaced]
    · refine .inr ⟨fun hnull => ?_, by rw [hsame]⟩
      obtain ⟨patch', hmem, hne⟩ := hcovered hnull
      exact ⟨patch', List.mem_cons_of_mem _ hmem, hne⟩

/-- Merge patches forget what the base document was iff a later one has each key at which the first
one has a `null`. -/
theorem run_mergePatches_eq_iff {patches : List Value}
    (hpatches : ∀ patch ∈ patches, patch.isObject = true) :
    run lib (patches.map .jsonMergePatch) .emptyObject =
        run lib (patches.map .jsonMergePatch) base ↔
      ∃ front first, patches = front ++ [first] ∧
        ∀ k, first.get? k = some .null → ∃ patch ∈ front, patch.get? k ≠ none := by
  cases patches using List.reverseRecOn with
  | nil =>
    refine iff_of_false (fun h => ?_) (by simp)
    rw [List.map_nil, run_nil, run_nil] at h
    rw [← h] at hbase
    cases hbase
  | append_singleton front first =>
    obtain ⟨hdoc, hdoc', hkeys⟩ := get?_run_mergePatches hmerge hbase
      (hpatches first (by simp)) fun patch hmem => hpatches patch (List.mem_append_left _ hmem)
    constructor
    · refine fun h => ⟨front, first, rfl, fun k hnull => ?_⟩
      obtain ⟨-, -, hsome, hnone⟩ | ⟨hcovered, -⟩ := hkeys k
      · rw [h, hsome] at hnone
        cases hnone
      · exact hcovered hnull
    · rintro ⟨front', first', heq, hcovered⟩
      obtain ⟨rfl, rfl⟩ := List.concat_inj.mp (by simpa using heq)
      refine Value.eq_of_get?_eq hdoc' hdoc fun k => ?_
      obtain ⟨hnull, hnone, -⟩ | ⟨-, hsame⟩ := hkeys k
      · obtain ⟨patch, hmem, hne⟩ := hcovered k hnull
        exact absurd (hnone patch hmem) hne
      · exact hsame.symm

end Patches

/-! ### Steps that forget the base document -/

/-- Behind a constant step all documents are the same. -/
theorem Step.IsConstant.run_eq {lib : JsonLibrary Patch} (hmerge : Value.IsDeepMerge lib.mergeFrom)
    {l : List (Step Patch)} {step : Step Patch} (hmem : step ∈ l) (h : step.IsConstant lib)
    (doc doc' : Value) : run lib l doc = run lib l doc' := by
  obtain ⟨later, earlier, rfl⟩ := List.append_of_mem hmem
  rw [run_append, run_append, run_cons, run_cons]
  cases step with
  | jsonMergePatch patch =>
    have hreplaced : ∀ doc, lib.mergeFrom doc patch = patch := fun doc =>
      hmerge.otherwise (by rw [show patch.isObject = false from h, Bool.and_false])
    rw [Step.apply, Step.apply, hreplaced, hreplaced]
  | jsonPatch patch => rw [Step.apply, Step.apply, h]
  | userProvided content => rw [Step.apply, Step.apply]

theorem IsForgetful.run_eq {lib : JsonLibrary Patch} (hmerge : Value.IsDeepMerge lib.mergeFrom)
    {l : List (Step Patch)} (h : IsForgetful lib l) {base : Value}
    (hbase : base.isObject = false) : run lib l .emptyObject = run lib l base := by
  obtain ⟨step, hmem, hconstant⟩ | ⟨later, patches, first, rfl, hcovered⟩ := h
  · exact hconstant.run_eq hmerge hmem _ _
  · by_cases hobjects : ∀ patch ∈ patches ++ [first], patch.isObject = true
    · rw [run_append, run_append]
      exact congrArg _ ((run_mergePatches_eq_iff hmerge hbase hobjects).mpr
        ⟨patches, first, rfl, hcovered⟩)
    · -- a merge patch that is no object is constant
      push Not at hobjects
      obtain ⟨patch, hmem, hpatch⟩ := hobjects
      have hconstant : (Step.jsonMergePatch patch).IsConstant lib :=
        Bool.eq_false_of_not_eq_true hpatch
      exact hconstant.run_eq hmerge
        (List.mem_append_right _ (List.mem_map_of_mem hmem)) _ _

/-- Without knowing what JSON patches do, the step is not constant. -/
def Step.IsRelative : Step Patch → Prop
  | jsonMergePatch patch => patch.isObject = true
  | jsonPatch _ => True
  | userProvided _ => False

theorem Step.isConstant_of_not_isRelative {step : Step Patch} (h : ¬ step.IsRelative)
    (lib : JsonLibrary Patch) : step.IsConstant lib := by
  cases step with
  | jsonMergePatch patch => exact Bool.eq_false_of_not_eq_true h
  | jsonPatch patch => exact absurd trivial h
  | userProvided content => trivial

/-- Steps without a constant one begin with merge patches, and then comes a JSON patch or nothing
more. -/
theorem exists_eq_append_mergePatches {l : List (Step Patch)} (hl : ∀ step ∈ l, step.IsRelative) :
    ∃ patches : List Value, (∀ patch ∈ patches, patch.isObject = true) ∧
      (l = patches.map .jsonMergePatch ∨
        ∃ later patch, l = later ++ .jsonPatch patch :: patches.map .jsonMergePatch) := by
  induction l with
  | nil => exact ⟨[], by simp, .inl rfl⟩
  | cons step l ih =>
    obtain ⟨hstep, hrest⟩ := List.forall_mem_cons.mp hl
    obtain ⟨patches, hpatches, rfl | ⟨later, patch, rfl⟩⟩ := ih hrest
    · cases step with
      | jsonMergePatch patch =>
        exact ⟨patch :: patches, List.forall_mem_cons.mpr ⟨hstep, hpatches⟩, .inl rfl⟩
      | jsonPatch patch => exact ⟨patches, hpatches, .inr ⟨[], patch, rfl⟩⟩
      | userProvided content => exact hstep.elim
    · exact ⟨patches, hpatches, .inr ⟨step :: later, patch, rfl⟩⟩

open Classical in
/-- A reading of JSON patches: the first one notes at a key whether it meets a certain document, and
all others have no effect. -/
noncomputable def marking (mergeFrom : Value → Value → Value) (key : String) (met : Value) :
    JsonLibrary Patch where
  mergeFrom := mergeFrom
  patch doc _ :=
    if (doc.get? key).isSome then (doc, none)
    else (.objectOf {key} fun _ => some (.bool (decide (doc = met))), none)

/-- Steps that do not know the key keep the note. -/
theorem get?_run_marking {mergeFrom : Value → Value → Value} (hmerge : Value.IsDeepMerge mergeFrom)
    {key : String} {met doc v : Value} {l : List (Step Patch)}
    (hl : ∀ step ∈ l, step.IsRelative)
    (hfresh : ∀ patch, Step.jsonMergePatch patch ∈ l → patch.get? key = none)
    (hdoc : doc.isObject = true) (hkey : doc.get? key = some v) :
    (run (marking mergeFrom key met) l doc).isObject = true ∧
      (run (marking mergeFrom key met) l doc).get? key = some v := by
  induction l with
  | nil => exact ⟨hdoc, hkey⟩
  | cons step l ih =>
    obtain ⟨hobject, hget⟩ := ih (fun s hs => hl s (List.mem_cons_of_mem _ hs))
      fun patch hmem => hfresh patch (List.mem_cons_of_mem _ hmem)
    rw [run_cons]
    generalize run (marking mergeFrom key met) l doc = doc' at hobject hget
    cases step with
    | jsonMergePatch patch =>
      have hpatch : patch.isObject = true := hl _ List.mem_cons_self
      refine ⟨hmerge.isObject_merge hobject hpatch, ?_⟩
      have hold := hmerge.get?_merge hobject hpatch key
      rw [hfresh patch List.mem_cons_self, hget] at hold
      exact hold
    | jsonPatch patch =>
      have hsame : (marking mergeFrom key met).patch doc' patch = (doc', none) :=
        if_pos (by rw [hget, Option.isSome_some])
      rw [Step.apply, hsame]
      exact ⟨hobject, hget⟩
    | userProvided content => exact (hl _ List.mem_cons_self).elim

/-- If nothing is known of JSON patches, steps that begin with one tell all documents apart. -/
theorem eq_of_forall_patch_run_eq {mergeFrom : Value → Value → Value}
    (hmerge : Value.IsDeepMerge mergeFrom) {later : List (Step Patch)} (patch : Patch)
    (hlater : ∀ step ∈ later, step.IsRelative) {doc doc' : Value}
    (h : ∀ lib : JsonLibrary Patch, lib.mergeFrom = mergeFrom →
      run lib (later ++ [.jsonPatch patch]) doc = run lib (later ++ [.jsonPatch patch]) doc') :
    doc = doc' := by
  classical
  obtain ⟨key, hkey⟩ := Value.exists_fresh (doc :: doc' :: later.filterMap fun step =>
    match step with
    | .jsonMergePatch p => some p
    | _ => none)
  obtain ⟨hdoc, hkey⟩ := List.forall_mem_cons.mp hkey
  obtain ⟨hdoc', hkey⟩ := List.forall_mem_cons.mp hkey
  have hfresh : ∀ p, Step.jsonMergePatch p ∈ later → p.get? key = none := fun p hp =>
    hkey p (List.mem_filterMap.mpr ⟨_, hp, rfl⟩)
  -- at the end the note tells which document the JSON patch met
  have hnote : ∀ d : Value, d.get? key = none →
      (run (marking mergeFrom key doc) (later ++ [Step.jsonPatch patch]) d).get? key =
        some (.bool (decide (d = doc))) := by
    intro d hd
    rw [run_append, run_cons, run_nil]
    have hmark : (marking mergeFrom key doc).patch d patch =
        (.objectOf {key} fun _ => some (.bool (decide (d = doc))), none) :=
      if_neg (by rw [hd]; decide)
    refine (get?_run_marking hmerge hlater hfresh ?_ ?_).2
    · rw [Step.apply, hmark]
      rfl
    · rw [Step.apply, hmark, Value.get?_objectOf, if_pos (Finset.mem_singleton_self key)]
  have hsame := (hnote doc hdoc).symm.trans
    ((congrArg (Value.get? · key) (h _ rfl)).trans (hnote doc' hdoc'))
  rw [decide_eq_true rfl] at hsame
  injection hsame with hbool
  injection hbool with htrue
  exact (of_decide_eq_true htrue.symm).symm

/-- **Exactly the forgetful steps** do not tell an empty object from a base document that is no
object, if nothing is known of JSON patches. -/
theorem isForgetful_of_forall_patch {mergeFrom : Value → Value → Value}
    (hmerge : Value.IsDeepMerge mergeFrom) {base : Value} (hbase : base.isObject = false)
    {l : List (Step Patch)}
    (h : ∀ lib : JsonLibrary Patch, lib.mergeFrom = mergeFrom →
      run lib l .emptyObject = run lib l base)
    (lib : JsonLibrary Patch) (hlib : lib.mergeFrom = mergeFrom) : IsForgetful lib l := by
  by_cases hl : ∀ step ∈ l, step.IsRelative
  · obtain ⟨patches, hpatches, hcases⟩ := exists_eq_append_mergePatches hl
    -- before the first JSON patch, the merge patches have forgotten the base document
    have hforgotten : run lib (patches.map Step.jsonMergePatch) .emptyObject =
        run lib (patches.map Step.jsonMergePatch) base := by
      obtain rfl | ⟨later, patch, rfl⟩ := hcases
      · exact h lib hlib
      · refine eq_of_forall_patch_run_eq hmerge patch
          (fun step hmem => hl step (List.mem_append_left _ hmem)) fun lib' hlib' => ?_
        have hsame : ∀ doc, run lib (patches.map Step.jsonMergePatch) doc =
            run lib' (patches.map Step.jsonMergePatch) doc :=
          run_eq_of_forall_ne_jsonPatch (hlib.trans hlib'.symm) (by simp)
        rw [hsame, hsame, ← run_append, ← run_append, List.append_assoc, List.singleton_append]
        exact h lib' hlib'
    obtain ⟨front, first, rfl, hcovered⟩ :=
      (run_mergePatches_eq_iff (hlib ▸ hmerge) hbase hpatches).mp hforgotten
    obtain rfl | ⟨later, patch, rfl⟩ := hcases
    · exact .inr ⟨[], front, first, rfl, hcovered⟩
    · refine .inr ⟨later ++ [.jsonPatch patch], front, first, ?_, hcovered⟩
      rw [List.append_assoc, List.singleton_append]
  · push Not at hl
    obtain ⟨step, hmem, hstep⟩ := hl
    exact .inl ⟨step, hmem, Step.isConstant_of_not_isRelative hstep lib⟩

/-! ### The default is neutral where it meets objects -/

/-- Overrides over the default see an empty object instead of a base document that is no object. -/
theorem apply_merge_empty_iff (lib : JsonLibrary Patch) (hmerge : Value.IsDeepMerge lib.mergeFrom)
    (overrides : JsonConfigOverrides Patch) (base : Value) :
    (overrides.merge empty).apply lib base = overrides.apply lib base ↔ base.isObject = true ∨
      run lib overrides.steps .emptyObject = run lib overrides.steps base := by
  rw [apply_merge, apply_empty lib hmerge, run_steps, run_steps]
  split_ifs with hbase
  · exact iff_of_true rfl (Or.inl hbase)
  · exact (or_iff_right hbase).symm

/-- The default over overrides sees the document that they leave. -/
theorem apply_empty_merge_iff (lib : JsonLibrary Patch) (hmerge : Value.IsDeepMerge lib.mergeFrom)
    (overrides : JsonConfigOverrides Patch) (base : Value) :
    (empty.merge overrides).apply lib base = overrides.apply lib base ↔
      (run lib overrides.steps base).isObject = true := by
  rw [apply_merge, apply_empty_eq_self_iff hmerge, run_steps]

/-- Below and above the overrides the default has no effect. -/
def IsNeutral (lib : JsonLibrary Patch) (overrides : JsonConfigOverrides Patch) (base : Value) :
    Prop :=
  (overrides.merge empty).apply lib base = overrides.apply lib base ∧
    (empty.merge overrides).apply lib base = overrides.apply lib base

theorem MeetsObjects.isNeutral {lib : JsonLibrary Patch} {overrides : JsonConfigOverrides Patch}
    {base : Value} (h : overrides.MeetsObjects lib base)
    (hmerge : Value.IsDeepMerge lib.mergeFrom) : overrides.IsNeutral lib base := by
  refine ⟨(apply_merge_empty_iff lib hmerge overrides base).mpr ?_,
    (apply_empty_merge_iff lib hmerge overrides base).mpr (h.above.isObject_run hmerge)⟩
  cases hbase : base.isObject with
  | true => exact .inl rfl
  | false => exact .inr ((h.below.resolve_left (by simp [hbase])).run_eq hmerge hbase)

theorem meetsObjects_of_forall_patch {mergeFrom : Value → Value → Value}
    (hmerge : Value.IsDeepMerge mergeFrom) {overrides : JsonConfigOverrides Patch} {base : Value}
    (h : ∀ lib : JsonLibrary Patch, lib.mergeFrom = mergeFrom → overrides.IsNeutral lib base)
    (lib : JsonLibrary Patch) (hlib : lib.mergeFrom = mergeFrom) :
    overrides.MeetsObjects lib base := by
  have hbelow : ∀ lib : JsonLibrary Patch, lib.mergeFrom = mergeFrom → base.isObject = true ∨
      run lib overrides.steps .emptyObject = run lib overrides.steps base := fun lib hlib =>
    (apply_merge_empty_iff lib (hlib ▸ hmerge) overrides base).mp (h lib hlib).1
  refine ⟨?_, ?_⟩
  · cases hbase : base.isObject with
    | true => exact .inl rfl
    | false => exact .inr (isForgetful_of_forall_patch hmerge hbase
        (fun lib hlib => (hbelow lib hlib).resolve_left (by simp [hbase])) lib hlib)
  · obtain ⟨_, patch⟩ := lib
    obtain rfl : _ = mergeFrom := hlib
    exact leavesObject_of_forall_patch hmerge (fun patch =>
      (apply_empty_merge_iff ⟨_, patch⟩ hmerge overrides base).mp (h ⟨_, patch⟩ rfl).2) patch

/-- **When the default is the identity.** Below all overrides it is one iff the base document is an
object. Below and above certain overrides it is one if they and the base document meet the condition
`MeetsObjects`. This is exact for overrides without JSON patches, and for all overrides if nothing
is known of what JSON patches do: then the default is the identity for every reading of them iff the
condition holds for every reading. -/
theorem default_identity_iff (lib : JsonLibrary Patch) (hmerge : Value.IsDeepMerge lib.mergeFrom)
    (base : Value) :
    ((∀ overrides : JsonConfigOverrides Patch,
        (overrides.merge empty).apply lib base = overrides.apply lib base) ↔
      base.isObject = true) ∧
    (∀ overrides : JsonConfigOverrides Patch,
      overrides.MeetsObjects lib base → overrides.IsNeutral lib base) ∧
    (∀ overrides : JsonConfigOverrides Patch, (∀ patch, Step.jsonPatch patch ∉ overrides.steps) →
      (overrides.IsNeutral lib base ↔ overrides.MeetsObjects lib base)) ∧
    ∀ overrides : JsonConfigOverrides Patch,
      (∀ patch, overrides.IsNeutral ⟨lib.mergeFrom, patch⟩ base) ↔
        ∀ patch, overrides.MeetsObjects ⟨lib.mergeFrom, patch⟩ base := by
  refine ⟨⟨fun h => ?_, fun hbase overrides => ?_⟩, fun overrides h => h.isNeutral hmerge,
    fun overrides hpatch => ⟨fun h => ?_, fun h => h.isNeutral hmerge⟩,
    fun overrides => ⟨fun h patch => ?_, fun h patch => (h patch).isNeutral hmerge⟩⟩
  · have hself := h (sequence [])
    rwa [apply_merge, apply, applyRev, apply, applyRev, apply_empty_eq_self_iff hmerge] at hself
  · exact (apply_merge_empty_iff lib hmerge overrides base).mpr (.inl hbase)
  · -- without JSON patches all readings of them give the same
    refine meetsObjects_of_forall_patch hmerge (fun lib' hlib' => ?_) lib rfl
    have hsame : ∀ doc, run lib' overrides.steps doc = run lib overrides.steps doc :=
      run_eq_of_forall_ne_jsonPatch hlib' hpatch
    have hmerge' : Value.IsDeepMerge lib'.mergeFrom := hlib' ▸ hmerge
    refine ⟨(apply_merge_empty_iff lib' hmerge' overrides base).mpr ?_,
      (apply_empty_merge_iff lib' hmerge' overrides base).mpr ?_⟩
    · rw [hsame, hsame]
      exact (apply_merge_empty_iff lib hmerge overrides base).mp h.1
    · rw [hsame]
      exact (apply_empty_merge_iff lib hmerge overrides base).mp h.2
  · refine meetsObjects_of_forall_patch hmerge (fun lib' hlib' => ?_) ⟨lib.mergeFrom, patch⟩ rfl
    obtain ⟨_, patch'⟩ := lib'
    obtain rfl : _ = lib.mergeFrom := hlib'
    exact h patch'

/-- Documents are merged deeply, and JSON patches have no operations. -/
def noOperations : JsonLibrary Unit := ⟨Value.mergeFrom, fun doc _ => (doc, none)⟩

/-- A merge patch sets a field of an empty document. -/
theorem default_identity_emptyObject :
    Value.IsDeepMerge noOperations.mergeFrom ∧
      (∀ overrides : JsonConfigOverrides Unit,
        (overrides.merge empty).apply noOperations .emptyObject =
          overrides.apply noOperations .emptyObject) ∧
      (jsonMergePatch (.objectOf {"port"} fun _ => some (.number "8080"))).IsNeutral noOperations
        .emptyObject := by
  obtain ⟨hbelow, hneutral, -, -⟩ :=
    default_identity_iff noOperations Value.isDeepMerge_mergeFrom .emptyObject
  exact ⟨Value.isDeepMerge_mergeFrom, hbelow.mpr rfl, hneutral _ ⟨.inl rfl, rfl⟩⟩

/-- A list is replaced by an empty object, on either side of a JSON patch that leaves it as it
is. -/
theorem default_not_identity_array :
    (jsonPatch ()).apply noOperations (.array []) = .array [] ∧
      ((jsonPatch ()).merge empty).apply noOperations (.array []) = .emptyObject ∧
      (empty.merge (jsonPatch ())).apply noOperations (.array []) = .emptyObject ∧
      Value.array [] ≠ .emptyObject := by
  have hempty := apply_empty noOperations Value.isDeepMerge_mergeFrom (.array [])
  have hpatch (doc : Value) : (jsonPatch ()).apply noOperations doc = doc := by
    rw [apply, noOperations]
  refine ⟨hpatch _, ?_, ?_, ?_⟩
  · rw [apply_merge, hpatch, hempty]
    rfl
  · rw [apply_merge, hpatch, hempty]
    rfl
  · intro h
    have hobject : (Value.array []).isObject = true := by rw [h]; rfl
    exact absurd hobject (by decide)

end JsonConfigOverrides

end V2

end StackableOperator
