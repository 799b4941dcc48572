import Mathlib
import StackableOperator.V2.Builder.Pod.Container

/-!
# References of environment variables

Kubernetes expands the value of an environment variable from left to right: `$$` is an escaped
dollar sign, and `$(` begins a name that extends to the first closing parenthesis, whatever is in
between. `referencedEnvVars` removes all `$$` first, also those within a name. So it finds the
names that are looked up without their `$$` (`referencedEnvVarNames_eq`), which only makes a
difference for sets with the names concerned (`referencedEnvVars_agrees_iff`).
-/

namespace StackableOperator

namespace V2

namespace EnvVarSet

/-! ### Expansion -/

/-- The names that the expansion of a value looks up. There is no name without a closing
parenthesis. -/
def lookedUpNames : Option (List Char) → List Char → List String
  | none, '$' :: '$' :: cs => lookedUpNames none cs
  | none, '$' :: '(' :: cs => lookedUpNames (some []) cs
  | none, _ :: cs => lookedUpNames none cs
  | some name, ')' :: cs => String.ofList name.reverse :: lookedUpNames none cs
  | some name, c :: cs => lookedUpNames (some (c :: name)) cs
  | _, [] => []

/-- The name without the pairs of dollar signs. -/
def withoutEscapes (name : String) : String :=
  String.ofList (removeEscapedDollarSigns name.toList)

/-- There is a pair of dollar signs within the name. -/
def HasEscape (name : String) : Prop := ['$', '$'] <:+: name.toList

/-! ### Pairs of dollar signs -/

theorem removeEscapedDollarSigns_cons {c : Char} {cs : List Char}
    (h : c = '$' → cs.head? ≠ some '$') :
    removeEscapedDollarSigns (c :: cs) = c :: removeEscapedDollarSigns cs := by
  rw [removeEscapedDollarSigns]
  rintro tail rfl rfl
  exact h rfl rfl

/-- Induction on the pairs of dollar signs from left to right. -/
@[elab_as_elim]
theorem escapes_induction {motive : List Char → Prop}
    (escaped : ∀ cs, motive cs → motive ('$' :: '$' :: cs))
    (cons : ∀ c cs, (c = '$' → cs.head? ≠ some '$') → motive cs → motive (c :: cs))
    (nil : motive []) (cs : List Char) : motive cs := by
  induction cs using removeEscapedDollarSigns.induct with
  | case1 cs ih => exact escaped cs ih
  | case2 c cs hne ih =>
    refine cons c cs ?_ ih
    rintro rfl hhead
    obtain ⟨tail, rfl⟩ := List.head?_eq_some_iff.mp hhead
    exact hne tail rfl rfl
  | case3 => exact nil

theorem removeEscapedDollarSigns_append {c : Char} (hc : c ≠ '$') (cs ds : List Char) :
    removeEscapedDollarSigns (cs ++ c :: ds) =
      removeEscapedDollarSigns cs ++ c :: removeEscapedDollarSigns ds := by
  induction cs using escapes_induction with
  | escaped cs ih => exact ih
  | cons b cs hhead ih =>
    have hhead' : b = '$' → (cs ++ c :: ds).head? ≠ some '$' := by
      intro hb
      match cs with
      | [] => simpa using hc
      | d :: cs => exact hhead hb
    rw [List.cons_append, removeEscapedDollarSigns_cons hhead', ih,
      removeEscapedDollarSigns_cons hhead, List.cons_append]
  | nil => exact removeEscapedDollarSigns_cons fun h => absurd h hc

theorem mem_of_mem_removeEscapedDollarSigns {c : Char} {cs : List Char}
    (h : c ∈ removeEscapedDollarSigns cs) : c ∈ cs := by
  induction cs using escapes_induction with
  | escaped cs ih => exact List.mem_cons_of_mem _ (List.mem_cons_of_mem _ (ih h))
  | cons b cs hhead ih =>
    rw [removeEscapedDollarSigns_cons hhead] at h
    obtain rfl | h := List.mem_cons.mp h
    · exact List.mem_cons_self
    · exact List.mem_cons_of_mem _ (ih h)
  | nil => exact h

/-- A list without pairs of dollar signs stays as it is. -/
theorem removeEscapedDollarSigns_of_not_infix {cs : List Char} (h : ¬['$', '$'] <:+: cs) :
    removeEscapedDollarSigns cs = cs := by
  induction cs using escapes_induction with
  | escaped cs ih => exact absurd (List.prefix_append ['$', '$'] cs).isInfix h
  | cons b cs hhead ih =>
    have hcs : ¬['$', '$'] <:+: cs := fun hcs => h (hcs.trans (List.suffix_cons b cs).isInfix)
    rw [removeEscapedDollarSigns_cons hhead, ih hcs]
  | nil => rfl

/-- No pairs of dollar signs remain. -/
theorem not_infix_removeEscapedDollarSigns (cs : List Char) :
    ¬['$', '$'] <:+: removeEscapedDollarSigns cs := by
  induction cs using escapes_induction with
  | escaped cs ih => exact ih
  | cons b cs hhead ih =>
    rw [removeEscapedDollarSigns_cons hhead, List.infix_cons_iff]
    rintro (hstart | hinfix)
    · obtain ⟨rfl, hnext⟩ := List.cons_prefix_cons.mp hstart
      -- the next character was a dollar sign already before
      cases cs with
      | nil => exact absurd (List.prefix_nil.mp hnext) (List.cons_ne_nil _ _)
      | cons c cs =>
        have hc : c ≠ '$' := fun hc => hhead rfl (congrArg some hc)
        rw [removeEscapedDollarSigns_cons fun h => absurd h hc] at hnext
        exact hc (List.cons_prefix_cons.mp hnext).1.symm
    · exact ih hinfix
  | nil => exact fun h => absurd (List.infix_nil.mp h) (List.cons_ne_nil _ _)

theorem withoutEscapes_eq_self_iff {name : String} :
    withoutEscapes name = name ↔ ¬HasEscape name := by
  constructor
  · intro h hescape
    rw [HasEscape, ← h, withoutEscapes, String.toList_ofList] at hescape
    exact not_infix_removeEscapedDollarSigns _ hescape
  · intro h
    rw [withoutEscapes, removeEscapedDollarSigns_of_not_infix h, String.ofList_toList]

theorem not_hasEscape_withoutEscapes (name : String) : ¬HasEscape (withoutEscapes name) := by
  rw [HasEscape, withoutEscapes, String.toList_ofList]
  exact not_infix_removeEscapedDollarSigns _

/-! ### Both scans -/

theorem referencedEnvVarNames_some_cons {name cs : List Char} {c : Char} (hc : c ≠ ')') :
    referencedEnvVarNames (some name) (c :: cs) = referencedEnvVarNames (some (c :: name)) cs := by
  rw [referencedEnvVarNames]
  · exact fun _ => hc
  · exact hc

theorem referencedEnvVarNames_some_append {name cs : List Char} (ds : List Char)
    (h : ')' ∉ cs) :
    referencedEnvVarNames (some name) (cs ++ ')' :: ds) =
      (if name.reverse ++ cs = [] then [] else [String.ofList (name.reverse ++ cs)]) ++
        referencedEnvVarNames none ds := by
  induction cs generalizing name with
  | nil =>
    rw [List.append_nil, List.nil_append]
    match name with
    | [] => rfl
    | c :: name =>
      rw [if_neg fun h => List.cons_ne_nil c name (List.reverse_eq_nil_iff.mp h)]
      rfl
  | cons c cs ih =>
    rw [List.mem_cons, not_or] at h
    rw [List.cons_append, referencedEnvVarNames_some_cons (Ne.symm h.1), ih h.2,
      List.reverse_cons, List.append_assoc, List.singleton_append]

theorem referencedEnvVarNames_some_of_not_mem {name cs : List Char} (h : ')' ∉ cs) :
    referencedEnvVarNames (some name) cs = [] := by
  induction cs generalizing name with
  | nil => cases name <;> rfl
  | cons c cs ih =>
    rw [List.mem_cons, not_or] at h
    rw [referencedEnvVarNames_some_cons (Ne.symm h.1), ih h.2]

theorem lookedUpNames_some_cons {name cs : List Char} {c : Char} (hc : c ≠ ')') :
    lookedUpNames (some name) (c :: cs) = lookedUpNames (some (c :: name)) cs := by
  rw [lookedUpNames]
  exact hc

theorem lookedUpNames_some_append {name cs : List Char} (ds : List Char) (h : ')' ∉ cs) :
    lookedUpNames (some name) (cs ++ ')' :: ds) =
      String.ofList (name.reverse ++ cs) :: lookedUpNames none ds := by
  induction cs generalizing name with
  | nil =>
    rw [List.append_nil]
    rfl
  | cons c cs ih =>
    rw [List.mem_cons, not_or] at h
    rw [List.cons_append, lookedUpNames_some_cons (Ne.symm h.1), ih h.2, List.reverse_cons,
      List.append_assoc, List.singleton_append]

theorem lookedUpNames_some_of_not_mem {name cs : List Char} (h : ')' ∉ cs) :
    lookedUpNames (some name) cs = [] := by
  induction cs generalizing name with
  | nil => rfl
  | cons c cs ih =>
    rw [List.mem_cons, not_or] at h
    rw [lookedUpNames_some_cons (Ne.symm h.1), ih h.2]

/-- The character begins neither an escaped dollar sign nor a name. -/
def IsPlain (c : Char) (cs : List Char) : Prop :=
  c = '$' → cs.head? ≠ some '$' ∧ cs.head? ≠ some '('

theorem lookedUpNames_cons_of_isPlain {c : Char} {cs : List Char} (h : IsPlain c cs) :
    lookedUpNames none (c :: cs) = lookedUpNames none cs := by
  rw [lookedUpNames]
  · rintro tail rfl rfl
    exact (h rfl).1 rfl
  · rintro tail rfl rfl
    exact (h rfl).2 rfl

theorem referencedEnvVarNames_cons_of_isPlain {c : Char} {cs : List Char}
    (h : c = '$' → cs.head? ≠ some '(') :
    referencedEnvVarNames none (c :: cs) = referencedEnvVarNames none cs := by
  rw [referencedEnvVarNames]
  rintro tail rfl rfl
  exact h rfl rfl

theorem head?_removeEscapedDollarSigns {cs : List Char} (h : cs.head? ≠ some '$') :
    (removeEscapedDollarSigns cs).head? = cs.head? := by
  cases cs with
  | nil => rfl
  | cons c cs =>
    rw [removeEscapedDollarSigns_cons fun hc => absurd (congrArg some hc) h]
    rfl

/-- How an expansion begins. -/
theorem expansion_cases (cs : List Char) :
    cs = [] ∨ (∃ ds, cs = '$' :: '$' :: ds) ∨ (∃ ds, cs = '$' :: '(' :: ds) ∨
      ∃ c ds, cs = c :: ds ∧ IsPlain c ds := by
  match cs with
  | [] => exact Or.inl rfl
  | c :: ds =>
    by_cases hplain : IsPlain c ds
    · exact Or.inr (Or.inr (Or.inr ⟨c, ds, rfl, hplain⟩))
    · rw [IsPlain, Classical.not_imp, not_and_or, not_not, not_not] at hplain
      obtain ⟨rfl, hhead | hhead⟩ := hplain
      · obtain ⟨tail, rfl⟩ := List.head?_eq_some_iff.mp hhead
        exact Or.inr (Or.inl ⟨tail, rfl⟩)
      · obtain ⟨tail, rfl⟩ := List.head?_eq_some_iff.mp hhead
        exact Or.inr (Or.inr (Or.inl ⟨tail, rfl⟩))

/-- **The references that are found** are the names that are looked up without their pairs of
dollar signs, as far as anything remains of them. -/
theorem referencedEnvVarNames_eq (cs : List Char) :
    referencedEnvVarNames none (removeEscapedDollarSigns cs) =
      ((lookedUpNames none cs).map withoutEscapes).filter (· ≠ "") := by
  induction hn : cs.length using Nat.strong_induction_on generalizing cs with
  | _ n ih =>
    subst hn
    -- a pair of dollar signs, the beginning of a reference, or a plain character
    obtain rfl | ⟨ds, rfl⟩ | ⟨ds, rfl⟩ | ⟨c, ds, rfl, hplain⟩ := expansion_cases cs
    · rfl
    · exact ih ds.length (by simp) ds rfl
    · have hremove : removeEscapedDollarSigns ('$' :: '(' :: ds) =
          '$' :: '(' :: removeEscapedDollarSigns ds := by
        rw [removeEscapedDollarSigns_cons (by simp), removeEscapedDollarSigns_cons (by simp)]
      rw [hremove]
      change referencedEnvVarNames (some []) (removeEscapedDollarSigns ds) =
        ((lookedUpNames (some []) ds).map withoutEscapes).filter (· ≠ "")
      -- a reference ends at the first bracket, if there is one
      by_cases hclose : ')' ∈ ds
      · obtain ⟨name, rest, rfl, hname⟩ := List.eq_append_cons_of_mem hclose
        have hlength : rest.length < ('$' :: '(' :: (name ++ ')' :: rest)).length := by
          simp only [List.length_cons, List.length_append]
          omega
        rw [removeEscapedDollarSigns_append (by decide), referencedEnvVarNames_some_append _
          fun h => hname (mem_of_mem_removeEscapedDollarSigns h), lookedUpNames_some_append _ hname,
          List.map_cons, List.filter_cons, ih rest.length hlength rest rfl, List.reverse_nil,
          List.nil_append, List.nil_append, withoutEscapes, String.toList_ofList]
        by_cases hempty : removeEscapedDollarSigns name = []
        · rw [if_pos hempty, hempty]
          rfl
        · have hne : String.ofList (removeEscapedDollarSigns name) ≠ "" := by
            simpa [String.ext_iff] using hempty
          rw [if_neg hempty, if_pos (decide_eq_true hne), List.singleton_append]
      · rw [referencedEnvVarNames_some_of_not_mem
          fun h => hclose (mem_of_mem_removeEscapedDollarSigns h),
          lookedUpNames_some_of_not_mem hclose]
        rfl
    · have hremove : removeEscapedDollarSigns (c :: ds) = c :: removeEscapedDollarSigns ds :=
        removeEscapedDollarSigns_cons fun hc => (hplain hc).1
      have hplain' : c = '$' → (removeEscapedDollarSigns ds).head? ≠ some '(' := by
        intro hc
        rw [head?_removeEscapedDollarSigns (hplain hc).1]
        exact (hplain hc).2
      rw [hremove, referencedEnvVarNames_cons_of_isPlain hplain',
        lookedUpNames_cons_of_isPlain hplain, ih ds.length (by simp) ds rfl]

/-! ### The references of a set -/

variable {self : EnvVarSet}

/-- The names of the variables in the set. -/
def names (self : EnvVarSet) : List String := self.values.map EnvVar.name

theorem mem_names_iff {x : String} : x ∈ self.names ↔ ∃ name envVar,
    EnvVarName.fromStr x = .ok name ∧ self.get name = some envVar ∧ envVar.name = x := by
  rw [names, List.mem_map]
  constructor
  · rintro ⟨envVar, hmem, rfl⟩
    obtain ⟨name, hname⟩ := mem_values_iff.mp hmem
    refine ⟨name, envVar, ?_, hname, rfl⟩
    rw [self.name_eq name envVar hname, EnvVarName.fromStr, dif_neg name.2.1, dif_pos name.2.2]
  · rintro ⟨name, envVar, -, hget, rfl⟩
    exact ⟨envVar, mem_values_iff.mpr ⟨name, hget⟩, rfl⟩

theorem mem_map_name_referencedEnvVars_iff {value x : String} :
    x ∈ (self.referencedEnvVars value).map EnvVar.name ↔
      x ∈ self.names ∧ ∃ k ∈ lookedUpNames none value.toList, withoutEscapes k = x := by
  have hfound (s : String) : s ∈ referencedEnvVarNames none
      (removeEscapedDollarSigns value.toList) ↔
        (∃ k ∈ lookedUpNames none value.toList, withoutEscapes k = s) ∧ s ≠ "" := by
    rw [referencedEnvVarNames_eq, List.mem_filter, List.mem_map, decide_eq_true_iff]
  rw [mem_names_iff, referencedEnvVars, List.mem_map]
  constructor
  · rintro ⟨envVar, hmem, rfl⟩
    obtain ⟨name, hname, hget⟩ := List.mem_filterMap.mp hmem
    obtain ⟨s, hs, hparse⟩ := List.mem_filterMap.mp hname
    obtain ⟨⟨k, hk, rfl⟩, -⟩ := (hfound s).mp hs
    have hok : EnvVarName.fromStr (withoutEscapes k) = .ok name := by
      match h : EnvVarName.fromStr (withoutEscapes k) with
      | .ok name' =>
        rw [h] at hparse
        rw [Option.some.inj hparse]
      | .error e =>
        rw [h] at hparse
        exact absurd hparse (Option.some_ne_none name).symm
    have hname : envVar.name = withoutEscapes k :=
      (self.name_eq name envVar hget).trans (EnvVarName.eq_of_fromStr_eq_ok hok)
    rw [hname]
    exact ⟨⟨name, envVar, hok, hget, hname⟩, k, hk, rfl⟩
  · rintro ⟨⟨name, envVar, hok, hget, hname⟩, k, hk, rfl⟩
    have hs : withoutEscapes k ≠ "" := by
      rw [← EnvVarName.eq_of_fromStr_eq_ok hok]
      exact name.2.1
    have hparse : (EnvVarName.fromStr (withoutEscapes k)).toOption = some name := by
      rw [hok]
      rfl
    exact ⟨envVar, List.mem_filterMap.mpr ⟨name, List.mem_filterMap.mpr
      ⟨withoutEscapes k, (hfound _).mpr ⟨⟨k, hk, rfl⟩, hs⟩, hparse⟩, hget⟩, hname⟩

/-- **The references of a value** are the variables of the set that Kubernetes looks up iff no name
with a pair of dollar signs that is looked up is in the set, nor, unless it is looked up itself,
this name without its pairs. -/
theorem referencedEnvVars_agrees_iff (self : EnvVarSet) (value : String) :
    (∀ x, x ∈ (self.referencedEnvVars value).map EnvVar.name ↔
        x ∈ self.names ∧ x ∈ lookedUpNames none value.toList) ↔
      ∀ name ∈ lookedUpNames none value.toList, HasEscape name → name ∉ self.names ∧
        (withoutEscapes name ∈ self.names →
          withoutEscapes name ∈ lookedUpNames none value.toList) := by
  simp only [mem_map_name_referencedEnvVars_iff, and_congr_right_iff]
  constructor
  · intro h name hname hescape
    refine ⟨fun hmem => ?_, fun hmem => (h _ hmem).mp ⟨name, hname, rfl⟩⟩
    obtain ⟨k, -, rfl⟩ := (h name hmem).mpr hname
    exact not_hasEscape_withoutEscapes k hescape
  · intro h x hx
    constructor
    · rintro ⟨k, hk, rfl⟩
      by_cases hescape : HasEscape k
      · exact (h k hk hescape).2 hx
      · rwa [withoutEscapes_eq_self_iff.mpr hescape]
    · intro hlookup
      refine ⟨x, hlookup, withoutEscapes_eq_self_iff.mpr fun hescape => ?_⟩
      exact (h x hlookup hescape).1 hx

theorem isEnvVarName_escape : "A$$B" ≠ "" ∧ "A$$B".toList.all isEnvVarNameChar = true := by decide

/-- Two names that only differ in a pair of dollar signs. -/
def escapeEnvVars : EnvVarSet :=
  new.withValues [(⟨"A$$B", isEnvVarName_escape⟩, "first"), (⟨"AB", by decide⟩, "second")]

/-- The reference to one variable is taken for one to the other variable. -/
theorem escapeEnvVars_not_agrees :
    (escapeEnvVars.referencedEnvVars "$(A$$B)").map EnvVar.name = ["AB"] ∧
      lookedUpNames none "$(A$$B)".toList = ["A$$B"] ∧ "A$$B" ∈ escapeEnvVars.names := by
  decide

end EnvVarSet

end V2

end StackableOperator
