import Mathlib
import StackableOperator.ForMathlib.SortKey
import StackableOperator.ForMathlib.Traverse
import StackableOperator.K8sVersion

/-!
# Attributes of versioned modules, fields and variants

What users write in `#[versioned(...)]`: the versions of a module, and the actions of its fields
and variants (`added`, `changed` and `deprecated`). `ModuleAttributes.validate_eq_ok` says that
accepted versions are strictly ascending, and `CommonItemAttributes.validate_eq_ok` which orders
of actions are accepted: changes come after the addition and before the deprecation, but in any
order among themselves.

Identifiers, paths and types are the texts of their tokens. A macro fails with a panic or with
error messages.
-/

namespace StackableOperator

namespace VersionedMacros

/-- How a macro fails. -/
inductive Failure : Type
  | panic
  | errors (messages : List String)
  deriving DecidableEq

/-- All messages of several checks. -/
def accumulate (checks : List (List String)) : Except Failure Unit :=
  if checks.flatten.isEmpty then .ok () else .error (.errors checks.flatten)

theorem map_eq_ok {α β : Type} {x : Except Failure α} {f : α → β} {b : β} :
    x.map f = .ok b ↔ ∃ a, x = .ok a ∧ f a = b := by
  rcases x with e | a <;> simp [Except.map]

theorem accumulate_eq_ok_iff {checks : List (List String)} :
    accumulate checks = .ok () ↔ ∀ check ∈ checks, check = [] := by
  rw [accumulate, ← List.flatten_eq_nil_iff]
  split_ifs with h
  · simpa using h
  · simpa using h

abbrev Ident : Type := String

abbrev RustType : Type := String

/-- A path like `::std::default::Default::default`. -/
structure Path where
  leadingColon : Bool
  segments : List Ident
  deriving DecidableEq

/-- An attribute other than `versioned`. -/
structure Attribute where
  path : Path
  deriving DecidableEq

/-! ### Modules -/

/-- A declared version. A deprecation may have a note of its own. -/
structure VersionArguments where
  deprecated : Option (Option String)
  skipFrom : Bool
  name : Version
  deriving DecidableEq

structure VersionDefinition where
  deprecated : Option String
  /-- No conversions between this version and the next one are generated. -/
  skipFrom : Bool
  inner : Version
  deriving DecidableEq

/-- The identifier of the module with the containers of the version. -/
def VersionDefinition.module (version : VersionDefinition) : Ident := version.inner.display

def VersionArguments.toDefinition (v : VersionArguments) : VersionDefinition where
  deprecated := v.deprecated.map fun note =>
    note.getD ("Version " ++ v.name.display ++ " is deprecated")
  skipFrom := v.skipFrom
  inner := v.name

namespace ModuleAttributes

/-- The versions that occur again, in the order in which they do. -/
def duplicates : List Version → List Version → List Version
  | _, [] => []
  | seen, v :: vs =>
    if seen.count v = 1 then v :: duplicates (v :: seen) vs else duplicates (v :: seen) vs

/-- Sort the versions, and check that there are some, that they were in ascending order and that
they are different. -/
def validate (versions : List VersionArguments) (allowUnsorted : Bool) :
    Except Failure (List VersionDefinition) :=
  let isSorted := decide ((versions.map VersionArguments.name).Pairwise (· ≤ ·))
  let sorted := sortByCachedKey VersionArguments.name versions
  let display := fun vs : List Version => ", ".intercalate (vs.map Version.display)
  let duplicateVersions := duplicates [] (sorted.map VersionArguments.name)
  (accumulate [
      if versions.isEmpty then ["at least one or more `version`s must be defined"] else [],
      if !allowUnsorted && !isSorted then
        ["versions must be defined in ascending order: " ++
          display (sorted.map VersionArguments.name)]
      else [],
      if !duplicateVersions.isEmpty then
        ["contains duplicate versions: " ++ display duplicateVersions]
      else []]).map fun _ => sorted.map VersionArguments.toDefinition

theorem duplicates_eq_nil {seen vs : List Version} (hseen : seen.Nodup)
    (h : duplicates seen vs = []) : vs.Nodup ∧ ∀ v ∈ vs, v ∉ seen := by
  induction vs generalizing seen with
  | nil => simp
  | cons v vs ih =>
    rw [duplicates] at h
    split_ifs at h with hcount
    have hv : v ∉ seen := by
      intro hmem
      exact hcount (List.count_eq_one_of_mem hseen hmem)
    obtain ⟨hnodup, hnot⟩ := ih (List.nodup_cons.mpr ⟨hv, hseen⟩) h
    refine ⟨List.nodup_cons.mpr ⟨fun hmem => hnot v hmem List.mem_cons_self, hnodup⟩, ?_⟩
    rintro w hw hmem
    rcases List.mem_cons.mp hw with rfl | hw
    · exact hv hmem
    · exact hnot w hw (List.mem_cons_of_mem v hmem)

/-- **Accepted versions** are some, and strictly ascending. -/
theorem validate_eq_ok {arguments : List VersionArguments} {allowUnsorted : Bool}
    {versions : List VersionDefinition} (h : validate arguments allowUnsorted = .ok versions) :
    versions ≠ [] ∧ (versions.map VersionDefinition.inner).Pairwise (· < ·) := by
  rw [validate] at h
  obtain ⟨_, hchecks, hversions⟩ := map_eq_ok.mp h
  rw [accumulate_eq_ok_iff] at hchecks
  have hempty := hchecks _ List.mem_cons_self
  have hduplicates := hchecks _ (List.mem_cons_of_mem _ (List.mem_cons_of_mem _
    List.mem_cons_self))
  have hne : arguments ≠ [] := by
    rintro rfl
    simp at hempty
  have hnodup :
      ((sortByCachedKey VersionArguments.name arguments).map VersionArguments.name).Nodup := by
    have hnil : duplicates []
        ((sortByCachedKey VersionArguments.name arguments).map VersionArguments.name) = [] := by
      by_contra hne
      simp [hne] at hduplicates
    exact (duplicates_eq_nil List.nodup_nil hnil).1
  have hsorted : ((sortByCachedKey VersionArguments.name arguments).map
      VersionArguments.name).Pairwise (· ≤ ·) := by
    rw [List.pairwise_map]
    exact pairwise_sortByCachedKey VersionArguments.name arguments
  have hnames : versions.map VersionDefinition.inner =
      (sortByCachedKey VersionArguments.name arguments).map VersionArguments.name := by
    rw [← hversions, List.map_map]
    rfl
  refine ⟨?_, ?_⟩
  · rw [← hversions, Ne, List.map_eq_nil_iff]
    intro hnil
    have hperm := perm_sortByCachedKey VersionArguments.name arguments
    rw [hnil] at hperm
    exact hne hperm.symm.eq_nil
  · rw [hnames]
    exact (hsorted.and hnodup).imp fun ⟨hle, hne⟩ => lt_of_le_of_ne hle hne

end ModuleAttributes

/-! ### Items -/

/-- `str::to_lowercase`, which follows the tables of Unicode. -/
class Lowercase where
  toLowercase : String → String

/-- On ASCII texts, only the letters from A to Z have a lower case. -/
abbrev asciiLowercase : Lowercase := ⟨String.toLower⟩

/-- The identifiers of a field or variant. -/
class ItemIdents (T : Type) where
  deprecationPrefix : String
  original : T → Ident
  /-- The original identifier without the deprecation marker. -/
  cleaned : T → Ident

def startsWith (s t : String) : Bool := t.toList.isPrefixOf s.toList

structure AddedAttributes where
  since : Version
  defaultFn : Path

/-- The function that an added item is initialised with unless another one is given. -/
def defaultDefaultFn : Path := ⟨true, ["std", "default", "Default", "default"]⟩

structure ChangedAttributes where
  since : Version
  fromName : Option String
  fromType : Option RustType
  upgradeWith : Option Path
  downgradeWith : Option Path

structure DeprecatedAttributes where
  since : Version
  note : Option String

/-- The actions of a field or variant. -/
structure CommonItemAttributes where
  added : Option AddedAttributes
  changes : List ChangedAttributes
  deprecated : Option DeprecatedAttributes

namespace CommonItemAttributes

variable {T : Type} [ItemIdents T]

def validateActionCombinations (self : CommonItemAttributes) : List String :=
  let addedAt := fun v : Version => self.added.any fun added => added.since = v
  if self.deprecated.any fun deprecated => addedAt deprecated.since then
    ["cannot be marked as `added` and `deprecated` in the same version"]
  else if self.changes.any fun change => addedAt change.since then
    ["cannot be marked as `added` and `changed` in the same version"]
  else if self.deprecated.any fun deprecated =>
      self.changes.any fun change => change.since = deprecated.since then
    ["cannot be marked as `deprecated` and `changed` in the same version"]
  else []

def validateActionOrder (self : CommonItemAttributes) : List String :=
  match self.added, self.deprecated with
  | some added, some deprecated =>
    if deprecated.since < added.since then
      ["cannot marked as `added` in version `" ++ added.since.display ++
        "` while being marked as `deprecated` in an earlier version `" ++
        deprecated.since.display ++ "`"]
    else validateChanges
  | _, _ => validateChanges
where
  validateChanges : List String :=
    if self.changes.all fun change =>
        (self.added.all fun added => added.since < change.since) &&
          self.deprecated.all fun deprecated => change.since < deprecated.since then []
    else ["all changes must use versions higher than `added` and lower than `deprecated`"]

def validateItemName (self : CommonItemAttributes) (idents : T) : List String :=
  let startsWithDeprecated :=
    startsWith (ItemIdents.original idents) (ItemIdents.deprecationPrefix T)
  if self.deprecated.isSome && !startsWithDeprecated then
    ["marked as `deprecated` and thus must include the `" ++ ItemIdents.deprecationPrefix T ++
      "` prefix"]
  else if self.deprecated.isNone && startsWithDeprecated then
    ["not marked as `deprecated` and thus must not include the `" ++
      ItemIdents.deprecationPrefix T ++ "` prefix"]
  else []

def validateAddedAction (self : CommonItemAttributes) : List String :=
  if self.added.any fun added => added.defaultFn.segments.isEmpty then
    ["`default_fn` cannot be empty"]
  else []

variable (T) in
def validateChangedAction (self : CommonItemAttributes) : List String :=
  self.changes.flatMap fun change =>
    (if change.fromName.isNone && change.fromType.isNone then
      ["both `from_name` and `from_type` are unset. Is this `changed()` action needed?"]
    else []) ++
    (if change.fromName.any fun name => startsWith name (ItemIdents.deprecationPrefix T) then
      ["the previous name must not start with the deprecation prefix"]
    else []) ++
    if change.fromType.isNone then
      (if change.upgradeWith.isSome then
        ["the `upgrade_with` argument must be used in combination with `from_type`"]
      else []) ++
      if change.downgradeWith.isSome then
        ["the `downgrade_with` argument must be used in combination with `from_type`"]
      else []
    else []

def validateItemAttributes (attrs : List Attribute) : List String :=
  if attrs.any fun attr => attr.path.segments.contains "deprecated" then
    ["deprecation must be done using `#[versioned(deprecated(since = \"VERSION\"))]`"]
  else []

/-- The validation that needs no versions. -/
def validate (self : CommonItemAttributes) (idents : T) (attrs : List Attribute) :
    Except Failure Unit :=
  accumulate [
    self.validateActionCombinations,
    self.validateActionOrder,
    self.validateItemName idents,
    self.validateAddedAction,
    self.validateChangedAction T,
    validateItemAttributes attrs]

/-- All actions use declared versions. -/
def validateVersions (self : CommonItemAttributes) (versions : List VersionDefinition) :
    Except Failure Unit :=
  let declared := fun v : Version => versions.any fun version => version.inner = v
  accumulate [
    if self.added.any fun added => !declared added.since then
      ["the `added` action uses a version which is not declared via `#[versioned(version)]`"]
    else [],
    self.changes.flatMap fun change =>
      if !declared change.since then
        ["the `changed` action uses a version which is not declared via `#[versioned(version)]`"]
      else [],
    if self.deprecated.any fun deprecated => !declared deprecated.since then
      ["the `deprecated` action uses a version which is not declared via `#[versioned(version)]`"]
    else []]

/-- What the validation says about the order of the actions. -/
structure Ordered (attributes : CommonItemAttributes) : Prop where
  added_lt_deprecated : ∀ added ∈ attributes.added, ∀ deprecated ∈ attributes.deprecated,
    added.since < deprecated.since
  added_lt_changed : ∀ added ∈ attributes.added, ∀ change ∈ attributes.changes,
    added.since < change.since
  changed_lt_deprecated : ∀ deprecated ∈ attributes.deprecated, ∀ change ∈ attributes.changes,
    change.since < deprecated.since

theorem ordered_of_validateActionOrder {self : CommonItemAttributes}
    (hcombinations : self.validateActionCombinations = [])
    (horder : self.validateActionOrder = []) : self.Ordered := by
  obtain ⟨hle, hchanges⟩ : (∀ added ∈ self.added, ∀ deprecated ∈ self.deprecated,
      added.since ≤ deprecated.since) ∧ validateActionOrder.validateChanges self = [] := by
    rw [validateActionOrder] at horder
    split at horder
    · rename_i added deprecated hadded hdeprecated
      split_ifs at horder with hlt
      refine ⟨?_, horder⟩
      intro added' hadded' deprecated' hdeprecated'
      obtain rfl := Option.some.inj (hadded.symm.trans hadded')
      obtain rfl := Option.some.inj (hdeprecated.symm.trans hdeprecated')
      exact not_lt.mp hlt
    · rename_i hnone
      refine ⟨?_, horder⟩
      intro added hadded deprecated hdeprecated
      exact absurd hdeprecated (hnone added deprecated hadded)
  have hne : ∀ added ∈ self.added, ∀ deprecated ∈ self.deprecated,
      added.since ≠ deprecated.since := by
    intro added hadded deprecated hdeprecated heq
    rw [Option.mem_def] at hadded hdeprecated
    simp [validateActionCombinations, hadded, hdeprecated, heq] at hcombinations
  rw [validateActionOrder.validateChanges] at hchanges
  split_ifs at hchanges with hall
  simp only [List.all_eq_true, Bool.and_eq_true, Option.all_eq_true, decide_eq_true_eq] at hall
  refine ⟨?_, ?_, ?_⟩
  · intro added hadded deprecated hdeprecated
    exact lt_of_le_of_ne (hle added hadded deprecated hdeprecated)
      (hne added hadded deprecated hdeprecated)
  · intro added hadded change hchange
    exact (hall change hchange).1 added hadded
  · intro deprecated hdeprecated change hchange
    exact (hall change hchange).2 deprecated hdeprecated

/-- **Accepted actions** are in order. -/
theorem ordered_of_validate {self : CommonItemAttributes} {idents : T} {attrs : List Attribute}
    (h : self.validate idents attrs = .ok ()) : self.Ordered := by
  rw [validate, accumulate_eq_ok_iff] at h
  exact ordered_of_validateActionOrder (h _ (by simp)) (h _ (by simp))

/-- Accepted actions use declared versions. -/
theorem declared_of_validateVersions {self : CommonItemAttributes}
    {versions : List VersionDefinition} (h : self.validateVersions versions = .ok ()) :
    (∀ added ∈ self.added, added.since ∈ versions.map VersionDefinition.inner) ∧
      (∀ change ∈ self.changes, change.since ∈ versions.map VersionDefinition.inner) ∧
      ∀ deprecated ∈ self.deprecated,
        deprecated.since ∈ versions.map VersionDefinition.inner := by
  have hdeclared (v : Version) : (versions.any fun version => version.inner = v) = true ↔
      v ∈ versions.map VersionDefinition.inner := by
    simp
  rw [validateVersions, accumulate_eq_ok_iff] at h
  simp only [List.forall_mem_cons, List.not_mem_nil, false_implies, implies_true, and_true,
    ite_eq_right_iff, List.cons_ne_nil, imp_false, List.flatMap_eq_nil_iff] at h
  obtain ⟨hadded, hchanges, hdeprecated⟩ := h
  refine ⟨?_, ?_, ?_⟩
  · intro added hmem
    rw [Option.mem_def] at hmem
    rw [← hdeclared]
    simpa [hmem] using hadded
  · intro change hmem
    rw [← hdeclared]
    simpa using hchanges change hmem
  · intro deprecated hmem
    rw [Option.mem_def] at hmem
    rw [← hdeclared]
    simpa [hmem] using hdeprecated

end CommonItemAttributes

end VersionedMacros

end StackableOperator
