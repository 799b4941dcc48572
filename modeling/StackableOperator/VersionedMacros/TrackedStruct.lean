import Mathlib
import StackableOperator.ForMathlib.OneShot
import StackableOperator.VersionedMacros.Tracking

/-!
# Structs with tracked conversions

What the generated code does between a version and the next one is determined by what happens to
the fields: each is absent in both versions, added, or kept under an old and a next name
(`Crossing`). `Struct.Data` has the values of a struct without the names, and `Struct.valueIn` its
value in a version. The *instances* of a value are its (nested) values of structs with added fields
and the values of these.
-/

namespace StackableOperator

namespace VersionedMacros

open IterMap (get?)

variable [Lowercase]

/-! ### Fields between two versions -/

/-- What happens to a field between a version and the next one. -/
inductive Crossing : Type
  | absent
  | added (ident : Ident) (defaultFn : Path)
  | kept (old next : Ident)
  deriving DecidableEq

namespace Crossing

def old : Crossing → Option Ident
  | kept old _ => some old
  | _ => none

def next : Crossing → Option Ident
  | kept _ next => some next
  | added ident _ => some ident
  | absent => none

def insertion : Crossing → Option StatusInsertion
  | added ident _ => some ⟨jsonPathIdent ident, ident⟩
  | _ => none

def removal (ty : RustType) : Crossing → Option StatusRemoval
  | added ident _ => some ⟨jsonPathIdent ident, ident, ty⟩
  | _ => none

end Crossing

/-- A status that leaves the type of a field as it is. -/
def ItemStatus.KeepsType (ty : RustType) : ItemStatus → Prop
  | addition _ _ ty' => ty' = ty
  | change downgradeWith upgradeWith _ _ fromType toType =>
    downgradeWith = none ∧ upgradeWith = none ∧ fromType = toType
  | _ => True

/-- A status that states no action with a value or a name of its own. -/
def ItemStatus.IsCarried : ItemStatus → Prop
  | deprecation _ _ _ | noChange _ _ _ => True
  | addition _ _ _ | change _ _ _ _ _ _ | notPresent => False

namespace VersionedField

variable (self : VersionedField) (version nextVersion : VersionDefinition)

/-- The type of the field never changes. -/
def KeepsType : Prop :=
  ∀ changes ∈ self.changes, ∀ v status,
    get? (M := BTreeMap Version) changes v = some status → status.KeepsType self.ty

/-- The name of the field in a version. -/
def nameIn (version : Version) : Option Ident :=
  match self.changes with
  | none => some self.idents.original
  | some changes =>
    ((get? (M := BTreeMap Version) changes version).bind fun status =>
      status.emitted self.ty).map Prod.fst

def crossing : Crossing :=
  if self.isAddedIn nextVersion then
    match self.changes.bind fun changes =>
        get? (M := BTreeMap Version) changes nextVersion.inner with
    | some (.addition ident defaultFn _) => .added ident defaultFn
    | _ => .absent
  else
    match self.nameIn version.inner, self.nameIn nextVersion.inner with
    | some old, some next => .kept old next
    | _, _ => .absent

/-- The assignment in an impl. -/
def assignment (direction : Direction) : Crossing → Option FieldAssignment
  | .absent => none
  | .added ident defaultFn =>
    match direction with
    | .upgrade => some (.default ident defaultFn)
    | .downgrade => none
  | .kept old next =>
    match direction with
    | .upgrade => some (self.generateFromImplField next old none)
    | .downgrade => some (self.generateFromImplField old next none)

/-- The path variable of an added field. -/
def pathIdents (direction : Direction) : Crossing → List Ident
  | .absent => []
  | .added ident _ => [jsonPathIdent ident]
  | .kept old next =>
    if self.nested then
      match direction with
      | .upgrade => [jsonPathIdent next]
      | .downgrade => [jsonPathIdent old]
    else []

/-- All code that is generated for a field follows from what happens to it. -/
structure Crosses (field : VersionedField) (version nextVersion : VersionDefinition)
    (crossing : Crossing) : Prop where
  nameIn_version : field.nameIn version.inner = crossing.old
  nameIn_next : field.nameIn nextVersion.inner = crossing.next
  isAddedIn : field.isAddedIn nextVersion = true ↔ ∃ ident defaultFn,
    crossing = .added ident defaultFn
  fromImpl : ∀ direction, field.generateForFromImpl direction version nextVersion =
    .ok (field.assignment direction crossing)
  insertion : field.generateForStatusInsertion .downgrade nextVersion = .ok crossing.insertion
  removal : field.generateForStatusRemoval .upgrade nextVersion =
    .ok (crossing.removal field.ty)
  jsonPath : ∃ jsonPath, field.generateForJsonPath nextVersion = .ok jsonPath

variable {self version nextVersion}

/-- The statuses of a field in two versions between which it converts. -/
theorem exists_statuses {changes : Changeset} (hchanges : self.changes = some changes)
    (h : self.Converts version nextVersion) : ∃ old next,
      get? (M := BTreeMap Version) changes version.inner = some old ∧
      get? (M := BTreeMap Version) changes nextVersion.inner = some next ∧
      ItemStatus.Fits self.ty old next := by
  obtain ⟨_, _, _, _, ⟨definition, hold, -⟩, ⟨definition', hnext, -⟩, -⟩ := id h
  rw [generateForContainer, hchanges] at hold hnext
  rcases hgetOld : get? (M := BTreeMap Version) changes version.inner with _ | old
  · simp [hgetOld] at hold
  rcases hgetNext : get? (M := BTreeMap Version) changes nextVersion.inner with _ | next
  · simp [hgetNext] at hnext
  exact ⟨old, next, rfl, rfl, (converts_iff hchanges hgetOld hgetNext).mp h⟩

omit [Lowercase] in
theorem fits_of_carried {old next : ItemStatus} (h : ItemStatus.Fits self.ty old next)
    (hcarried : next.IsCarried) :
    ∃ oldIdent nextIdent fieldType, old.emitted self.ty = some (oldIdent, fieldType) ∧
      next.emitted self.ty = some (nextIdent, fieldType) := by
  rcases next with _ | _ | _ | _ | _
  · exact absurd hcarried id
  · exact absurd hcarried id
  · rcases old with _ | _ | _ | _ | _ <;> exact h
  · rcases old with _ | _ | _ | _ | _ <;> exact h
  · exact absurd hcarried id

theorem generateForFromImpl_of_carried {changes : Changeset}
    (hchanges : self.changes = some changes) {old next : ItemStatus}
    (hold : get? (M := BTreeMap Version) changes version.inner = some old)
    (hnext : get? (M := BTreeMap Version) changes nextVersion.inner = some next)
    (hcarried : next.IsCarried) {oldIdent nextIdent : Ident} {oldType nextType : RustType}
    (holdIdent : old.emitted self.ty = some (oldIdent, oldType))
    (hnextIdent : next.emitted self.ty = some (nextIdent, nextType)) (direction : Direction) :
    self.generateForFromImpl direction version nextVersion =
      .ok (self.assignment direction (.kept oldIdent nextIdent)) := by
  have hgetIdent : ∀ {status : ItemStatus} {ident : Ident} {ty : RustType},
      status.emitted self.ty = some (ident, ty) → status.getIdent = .ok ident := by
    intro status ident ty h
    rcases status with _ | _ | _ | _ | _ <;> simp_all [ItemStatus.emitted, ItemStatus.getIdent]
  have hidents := And.intro (hgetIdent holdIdent) (hgetIdent hnextIdent)
  rcases next with _ | _ | _ | _ | _
  · exact absurd hcarried id
  · exact absurd hcarried id
  · rcases direction with _ | _ <;> rcases old with _ | _ | _ | _ | _ <;>
      simp [generateForFromImpl, hchanges, hold, hnext, hidents, assignment, bind, Except.bind,
        pure, Except.pure]
  · rcases direction with _ | _ <;> rcases old with _ | _ | _ | _ | _ <;>
      simp [generateForFromImpl, hchanges, hold, hnext, hidents, assignment, bind, Except.bind,
        pure, Except.pure]
  · exact absurd hcarried id

theorem crosses_kept {changes : Changeset} (hchanges : self.changes = some changes)
    {old next : ItemStatus}
    (hold : get? (M := BTreeMap Version) changes version.inner = some old)
    (hnext : get? (M := BTreeMap Version) changes nextVersion.inner = some next)
    (hadded : ¬ next.IsAddition) {oldIdent nextIdent : Ident}
    (holdIdent : (old.emitted self.ty).map Prod.fst = some oldIdent)
    (hnextIdent : (next.emitted self.ty).map Prod.fst = some nextIdent)
    (hfromImpl : ∀ direction, self.generateForFromImpl direction version nextVersion =
      .ok (self.assignment direction (.kept oldIdent nextIdent)))
    (hjsonPath : ∃ jsonPath, self.generateForJsonPath nextVersion = .ok jsonPath) :
    self.Crosses version nextVersion (self.crossing version nextVersion) := by
  have hnameOld : self.nameIn version.inner = some oldIdent := by
    simpa [nameIn, hchanges, hold] using holdIdent
  have hnameNext : self.nameIn nextVersion.inner = some nextIdent := by
    simpa [nameIn, hchanges, hnext] using hnextIdent
  have hnotAdded : self.isAddedIn nextVersion = false := by
    rcases next with _ | _ | _ | _ | _
    · exact absurd trivial hadded
    all_goals simp [isAddedIn, hchanges, hnext]
  have hcrossing : self.crossing version nextVersion = .kept oldIdent nextIdent := by
    simp [crossing, hnotAdded, hnameOld, hnameNext]
  rw [hcrossing]
  refine ⟨hnameOld, hnameNext, by simp [hnotAdded], hfromImpl, ?_, ?_, hjsonPath⟩
  · rcases next with _ | _ | _ | _ | _
    · exact absurd trivial hadded
    all_goals simp [generateForStatusInsertion, hchanges, hnext, Crossing.insertion]
  · rcases next with _ | _ | _ | _ | _
    · exact absurd trivial hadded
    all_goals simp [generateForStatusRemoval, hchanges, hnext, Crossing.removal]

theorem crosses_added {changes : Changeset} (hchanges : self.changes = some changes)
    {ident : Ident} {defaultFn : Path}
    (hold : get? (M := BTreeMap Version) changes version.inner = some .notPresent)
    (hnext : get? (M := BTreeMap Version) changes nextVersion.inner =
      some (.addition ident defaultFn self.ty))
    (hjsonPath : ∃ jsonPath, self.generateForJsonPath nextVersion = .ok jsonPath) :
    self.Crosses version nextVersion (self.crossing version nextVersion) := by
  have hcrossing : self.crossing version nextVersion = .added ident defaultFn := by
    simp [crossing, isAddedIn, hchanges, hnext]
  rw [hcrossing]
  refine ⟨?_, ?_, ?_, ?_, ?_, ?_, hjsonPath⟩
  · simp [nameIn, hchanges, hold, ItemStatus.emitted, Crossing.old]
  · simp [nameIn, hchanges, hnext, ItemStatus.emitted, Crossing.next]
  · simp [isAddedIn, hchanges, hnext]
  · rintro (_ | _) <;> simp [generateForFromImpl, hchanges, hold, hnext, assignment]
  · simp [generateForStatusInsertion, hchanges, hnext, Crossing.insertion]
  · simp [generateForStatusRemoval, hchanges, hnext, Crossing.removal]

theorem crosses_absent {changes : Changeset} (hchanges : self.changes = some changes)
    (hold : get? (M := BTreeMap Version) changes version.inner = some .notPresent)
    (hnext : get? (M := BTreeMap Version) changes nextVersion.inner = some .notPresent)
    (hjsonPath : ∃ jsonPath, self.generateForJsonPath nextVersion = .ok jsonPath) :
    self.Crosses version nextVersion (self.crossing version nextVersion) := by
  have hcrossing : self.crossing version nextVersion = .absent := by
    simp [crossing, isAddedIn, nameIn, hchanges, hnext, ItemStatus.emitted]
  rw [hcrossing]
  refine ⟨?_, ?_, ?_, ?_, ?_, ?_, hjsonPath⟩
  · simp [nameIn, hchanges, hold, ItemStatus.emitted, Crossing.old]
  · simp [nameIn, hchanges, hnext, ItemStatus.emitted, Crossing.next]
  · simp [isAddedIn, hchanges, hnext]
  · rintro (_ | _) <;> simp [generateForFromImpl, hchanges, hold, hnext, assignment]
  · simp [generateForStatusInsertion, hchanges, hnext, Crossing.insertion]
  · simp [generateForStatusRemoval, hchanges, hnext, Crossing.removal]

/-- A field whose status is carried over keeps what it has in the version before. -/
theorem crosses_carried {changes : Changeset} (hchanges : self.changes = some changes)
    {old next : ItemStatus}
    (hold : get? (M := BTreeMap Version) changes version.inner = some old)
    (hnext : get? (M := BTreeMap Version) changes nextVersion.inner = some next)
    (hfits : ItemStatus.Fits self.ty old next) (hcarried : next.IsCarried)
    (hjsonPath : ∃ jsonPath, self.generateForJsonPath nextVersion = .ok jsonPath) :
    self.Crosses version nextVersion (self.crossing version nextVersion) := by
  obtain ⟨oldIdent, nextIdent, fieldType, hemitted, hemittedNext⟩ := fits_of_carried hfits hcarried
  have hfromImpl := generateForFromImpl_of_carried hchanges hold hnext hcarried hemitted
    hemittedNext
  have hadded : ¬ next.IsAddition := by
    rcases next with _ | _ | _ | _ | _
    · exact absurd hcarried id
    all_goals exact id
  exact crosses_kept hchanges hold hnext hadded (congrArg (Option.map Prod.fst) hemitted)
    (congrArg (Option.map Prod.fst) hemittedNext) hfromImpl hjsonPath

/-- A field without changes keeps its name. -/
theorem crosses_of_changes_eq_none (hchanges : self.changes = none) :
    self.Crosses version nextVersion (self.crossing version nextVersion) := by
  have hname (v : Version) : self.nameIn v = some self.idents.original := by
    rw [nameIn, hchanges]
  have hadded : self.isAddedIn nextVersion = false := by
    rw [isAddedIn, hchanges]
    rfl
  have hcrossing : self.crossing version nextVersion =
      .kept self.idents.original self.idents.original := by
    simp [crossing, hadded, hname]
  rw [hcrossing]
  refine ⟨hname _, hname _, by simp [hadded], ?_, ?_, ?_, ?_⟩
  · rintro (_ | _) <;> simp [generateForFromImpl, hchanges, assignment]
  · simp [generateForStatusInsertion, hchanges, Crossing.insertion]
  · simp [generateForStatusRemoval, hchanges, Crossing.removal]
  · rcases hnested : self.nested with _ | _ <;> simp [generateForJsonPath, hchanges, hnested]

omit [Lowercase] in
theorem eq_notPresent_of_fits {old next : ItemStatus} (h : ItemStatus.Fits self.ty old next)
    (hnew : next.IsAddition ∨ next = .notPresent) : old = .notPresent := by
  rcases next with _ | _ | _ | _ | _
  · rcases old with _ | _ | _ | _ | _ <;> simp_all [ItemStatus.Fits, ItemStatus.emitted]
  · exact absurd hnew (by simp [ItemStatus.IsAddition])
  · exact absurd hnew (by simp [ItemStatus.IsAddition])
  · exact absurd hnew (by simp [ItemStatus.IsAddition])
  · rcases old with _ | _ | _ | _ | _ <;> simp_all [ItemStatus.Fits, ItemStatus.emitted]

/-- **What happens to a field** that converts and keeps its type. -/
theorem crosses (h : self.Converts version nextVersion) (htype : self.KeepsType) :
    self.Crosses version nextVersion (self.crossing version nextVersion) := by
  rcases hchanges : self.changes with _ | changes
  · exact crosses_of_changes_eq_none hchanges
  -- the status of the next version decides
  · obtain ⟨old, next, hold, hnext, hfits⟩ := exists_statuses hchanges h
    have htypeNext := htype changes hchanges _ _ hnext
    have hjsonPath : ∃ jsonPath, self.generateForJsonPath nextVersion = .ok jsonPath := by
      rcases hnested : self.nested with _ | _
      · rcases next with _ | _ | _ | _ | _ <;> simp [generateForJsonPath, hchanges, hnested, hnext]
      · simp [generateForJsonPath, hnested]
    rcases next with ⟨ident, defaultFn, ty⟩ | ⟨dw, uw, fi, ti, ft, tt⟩ | _ | _ | _
    · obtain rfl : ty = self.ty := htypeNext
      obtain rfl := eq_notPresent_of_fits hfits (.inl trivial)
      exact crosses_added hchanges hold hnext hjsonPath
    · obtain ⟨rfl, rfl, rfl⟩ := htypeNext
      -- the status of a change names the field on both sides
      have hemitted : old.emitted self.ty = some (fi, ft) := by
        rcases old with _ | _ | _ | _ | _ <;> simpa [ItemStatus.Fits] using hfits
      refine crosses_kept hchanges hold hnext ?_ (by rw [hemitted]; rfl) rfl ?_ hjsonPath
      · rintro ⟨⟩
      · rintro (_ | _) <;> rcases old with _ | _ | _ | _ | _ <;>
          simp [generateForFromImpl, hchanges, hold, hnext, assignment]
    · exact crosses_carried hchanges hold hnext hfits trivial hjsonPath
    · exact crosses_carried hchanges hold hnext hfits trivial hjsonPath
    · obtain rfl := eq_notPresent_of_fits hfits (.inr rfl)
      exact crosses_absent hchanges hold hnext hjsonPath

end VersionedField

/-! ### Values without names -/

/-- How many values a wrapped field has. -/
def Admits : Option Hint → ℕ → Prop
  | none, n => n = 1
  | some .option, n => n ≤ 1
  | some .vec, _ => True

/-- The value of a field with the given structs. -/
def wrap {Leaf : RustType → Type} : Option Hint → List (StructValue Leaf) → SpecValue Leaf
  | none, values => .struct (values.headD [])
  | some .option, values => .option (values.head?.map .struct)
  | some .vec, values => .vec (values.map .struct)

omit [Lowercase] in
theorem wrap_injective {Leaf : RustType → Type} {hint : Option Hint}
    {values values' : List (StructValue Leaf)} (h : Admits hint values.length)
    (h' : Admits hint values'.length) (heq : wrap hint values = wrap hint values') :
    values = values' := by
  rcases hint with _ | (_ | _)
  · obtain ⟨value, rfl⟩ := List.length_eq_one_iff.mp h
    obtain ⟨value', rfl⟩ := List.length_eq_one_iff.mp h'
    simpa [wrap] using heq
  · rcases values with _ | ⟨value, _ | _⟩ <;> rcases values' with _ | ⟨value', _ | _⟩
    all_goals simp_all [wrap, Admits]
  · have hinj : Function.Injective (@SpecValue.struct Leaf) := by
      intro a b hab
      simpa using hab
    exact List.map_injective_iff.mpr hinj (by simpa [wrap] using heq)

section Data

variable (Leaf : RustType → Type)

/-- The values of the fields of a struct, also of those that some versions do not have. -/
def Struct.Data : Struct → Type
  | .nil => Unit
  | .leaf field rest => Leaf field.ty × rest.Data
  | .nested field struct rest =>
    { values : List struct.Data // Admits field.hint values.length } × rest.Data

variable {Leaf}

/-- The fields with their names in a version, if they have one. -/
def emit (version : Version) (cells : List (VersionedField × SpecValue Leaf)) : StructValue Leaf :=
  cells.filterMap fun cell => (cell.1.nameIn version).map fun ident => (ident, cell.2)

namespace Struct

/-- The fields of a struct with their values in a version. -/
def cells (version : Version) :
    (self : Struct) → self.Data Leaf → List (VersionedField × SpecValue Leaf)
  | nil, _ => []
  | leaf field rest, data => (field, .leaf field.ty data.1) :: rest.cells version data.2
  | nested field struct rest, data =>
    (field,
      wrap field.hint (data.1.1.map fun value => emit version (struct.cells version value))) ::
        rest.cells version data.2

/-- **The value of a struct in a version.** -/
def valueIn (version : Version) (self : Struct) (data : self.Data Leaf) : StructValue Leaf :=
  emit version (self.cells version data)

end Struct

/-! ### Instances of structs with added fields -/

/-- A field that is added in a version, with the path under which its value is tracked. -/
structure AddedField (Leaf : RustType → Type) where
  jsonPath : String
  ident : Ident
  ty : RustType
  value : SpecValue Leaf
  default : SpecValue Leaf

variable {Yaml : Type} (crate : Crate Leaf Yaml) (version nextVersion : VersionDefinition)

def addedFields (paths : List (Ident × String))
    (cells : List (VersionedField × SpecValue Leaf)) : List (AddedField Leaf) :=
  cells.filterMap fun cell =>
    match cell.1.crossing version nextVersion with
    | .added ident defaultFn =>
      some { jsonPath := (paths.lookup (jsonPathIdent ident)).getD ""
             ident := ident
             ty := cell.1.ty
             value := cell.2
             default := crate.default nextVersion.inner cell.1.ty defaultFn }
    | _ => none

/-- The instances of a value, in the order in which they are visited: a downgrade visits a value
before its nested values, and an upgrade after them. -/
def visit (direction : Direction) (added : List (AddedField Leaf))
    (nested : List (List (AddedField Leaf))) : List (List (AddedField Leaf)) :=
  if added = [] then nested
  else
    match direction with
    | .upgrade => nested ++ [added]
    | .downgrade => added :: nested

namespace Struct

/-- The path variables of the impls. -/
def paths (self : Struct) (nextVersion : VersionDefinition) (parent : String) :
    List (Ident × String) :=
  pathVariables ((generateJsonPaths self.fields nextVersion).toOption.getD []) parent

/-- The instances in the nested values of a value. A nested value has the path of the field that
its conversion assigns. -/
def nestedInstances (direction : Direction) (paths : List (Ident × String)) :
    (self : Struct) → self.Data Leaf → List (List (AddedField Leaf))
  | nil, _ => []
  | leaf _ rest, data => rest.nestedInstances direction paths data.2
  | nested field struct rest, data =>
    (match field.crossing version nextVersion with
      | .kept old next => data.1.1.flatMap fun value =>
        let ident := match direction with
          | .upgrade => next
          | .downgrade => old
        let paths := struct.paths nextVersion ((paths.lookup (jsonPathIdent ident)).getD "")
        visit direction
          (addedFields crate version nextVersion paths (struct.cells nextVersion.inner value))
          (struct.nestedInstances direction paths value)
      | _ => []) ++ rest.nestedInstances direction paths data.2

def instances (direction : Direction) (self : Struct) (data : self.Data Leaf) (parent : String) :
    List (List (AddedField Leaf)) :=
  visit direction
    (addedFields crate version nextVersion (self.paths nextVersion parent)
      (self.cells nextVersion.inner data))
    (self.nestedInstances crate version nextVersion direction (self.paths nextVersion parent) data)

end Struct

/-! ### When tracked values are restored -/

/-- What is tracked for a field. -/
def AddedField.change (self : AddedField Leaf) : Option (ChangedValue Yaml) :=
  match crate.toValue self.value with
  | .ok value => some ⟨self.jsonPath, value⟩
  | .error _ => none

/-- What is tracked for instances. -/
def changesOf (instances : List (List (AddedField Leaf))) : List (ChangedValue Yaml) :=
  instances.flatMap fun added => added.filterMap (AddedField.change crate)

/-- The added fields have the values that they get without tracked changes. -/
def IsDefault (added : List (AddedField Leaf)) : Prop :=
  ∀ field ∈ added, field.value = field.default

/-- The assignment that restores a change: to the first field with its path. -/
def decode (added : List (AddedField Leaf)) (change : ChangedValue Yaml) :
    Option (Ident × SpecValue Leaf) :=
  (added.find? fun field => field.jsonPath = change.jsonPath).bind fun field =>
    (crate.fromValue nextVersion.inner field.ty change.value).toOption.map fun value =>
      (field.ident, value)

/-- All changes belong to the fields, and the last one for a field has its value. -/
structure IsRestoredBy (changes : List (ChangedValue Yaml)) (added : List (AddedField Leaf)) :
    Prop where
  isSome_decode : ∀ change ∈ changes, (decode crate nextVersion added change).isSome = true
  getD_lookup : ∀ field ∈ added,
    ((changes.filterMap (decode crate nextVersion added)).reverse.lookup field.ident).getD
      field.default = field.value

namespace Struct

/-- The changes that a downgrade tracks. -/
def trackedChanges (self : Struct) (data : self.Data Leaf) (parent : String) :
    List (ChangedValue Yaml) :=
  changesOf crate (self.instances crate version nextVersion .downgrade data parent)

/-- **When a downgrade and an upgrade restore a value**: there is no instance, or no change was
tracked before for the version, the changes restore the instance that the upgrade visits first, and
all other instances have their default values. -/
def Restores (self : Struct) (data : self.Data Leaf) (status : ChangedValues Yaml) : Prop :=
  let instances := self.instances crate version nextVersion .upgrade data "$"
  instances = [] ∨
    get? (M := BTreeMap String) status.upgrades nextVersion.inner.display = none ∧
      Slot.FirstContent
        (IsRestoredBy crate nextVersion (self.trackedChanges crate version nextVersion data "$"))
        IsDefault instances

end Struct

/-! ### Accepted structs -/

/-- The generated code for the fields of a struct compiles, and no field changes its type. -/
structure Tracks (fields : List VersionedField) (versions : List VersionDefinition) : Prop where
  keepsType : ∀ field ∈ fields, field.KeepsType
  converts : ∀ field ∈ fields, ∀ version nextVersion, [version, nextVersion] <:+: versions →
    field.Converts version nextVersion
  nodup : ∀ version ∈ versions, (fields.filterMap fun field => field.nameIn version.inner).Nodup
  declares : ∀ version nextVersion, [version, nextVersion] <:+: versions → ∀ field ∈ fields,
    ∀ direction, ∀ ident ∈ field.pathIdents direction (field.crossing version nextVersion),
      ∃ jsonPath ∈ (generateJsonPaths fields nextVersion).toOption.getD [],
        jsonPath.ident = ident

/-- The nested structs are tracked, and exactly the fields with a nested struct are marked. -/
def Struct.NestedTrack (versions : List VersionDefinition) : Struct → Prop
  | .nil => True
  | .leaf field rest => field.nested = false ∧ rest.NestedTrack versions
  | .nested field struct rest => field.nested = true ∧ Tracks struct.fields versions ∧
      struct.NestedTrack versions ∧ rest.NestedTrack versions

/-- **A versioned struct with tracked conversions.** -/
def Struct.IsTracked (self : Struct) (versions : List VersionDefinition) : Prop :=
  Tracks self.fields versions ∧ self.NestedTrack versions

/-- What is known about the code outside of the macro for an added field: its default is a value of
its type, and values of this type survive serialization. -/
structure Crate.Handles (nextVersion : VersionDefinition) (ty : RustType) (defaultFn : Path)
    (IsValue : SpecValue Leaf → Prop) : Prop where
  default : IsValue (crate.default nextVersion.inner ty defaultFn)
  fromValue : ∀ yaml value, crate.fromValue nextVersion.inner ty yaml = .ok value → IsValue value
  toValue : ∀ value, IsValue value → ∃ yaml, crate.toValue value = .ok yaml ∧
    crate.fromValue nextVersion.inner ty yaml = .ok value

/-- All added fields are handled. -/
def Struct.IsHandled (versions : List VersionDefinition) : Struct → Prop
  | .nil => True
  | .leaf field rest =>
    (∀ version nextVersion, [version, nextVersion] <:+: versions → ∀ ident defaultFn,
      field.crossing version nextVersion = .added ident defaultFn →
        crate.Handles nextVersion field.ty defaultFn fun value =>
          ∃ leaf : Leaf field.ty, value = .leaf field.ty leaf) ∧
      rest.IsHandled versions
  | .nested field struct rest =>
    (∀ version nextVersion, [version, nextVersion] <:+: versions → ∀ ident defaultFn,
      field.crossing version nextVersion = .added ident defaultFn →
        crate.Handles nextVersion field.ty defaultFn fun value =>
          ∃ values : List (struct.Data Leaf), Admits field.hint values.length ∧
            value = wrap field.hint (values.map (struct.valueIn nextVersion.inner))) ∧
      struct.IsHandled versions ∧ rest.IsHandled versions

end Data

end VersionedMacros

end StackableOperator
