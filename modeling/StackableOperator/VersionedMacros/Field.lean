import Mathlib
import StackableOperator.VersionedMacros.Item

/-!
# Versioned fields

The code that is generated for a field of a versioned struct: its definition in every version, and
the assignments in the conversions between consecutive versions.

`exists_new` and `exists_insertContainerVersions` say what an accepted field becomes;
`emits_iff` gives its definitions by the statuses. A conversion is sound (`Converts`) if it reads
and writes what the definitions have.
-/

namespace StackableOperator

namespace VersionedMacros

open IterMap (get?)

/-! ### The model of the source -/

/-- A field that is wrapped. -/
inductive Hint : Type
  | option
  | vec
  deriving DecidableEq

structure FieldAttributes where
  common : CommonItemAttributes
  attrs : List Attribute
  /-- The type of the field is a versioned struct. -/
  nested : Bool
  hint : Option Hint

def FieldAttributes.validateNestedFlag (self : FieldAttributes)
    (experimentalConversionTracking : Bool) : Except Failure Unit :=
  if self.nested && !experimentalConversionTracking then
    .error (.errors ["the `nested` argument can only be used if the module-level " ++
      "`experimental_conversion_tracking` flag is set"])
  else .ok ()

/-- A field as the user declares it. -/
structure Field where
  ident : Ident
  ty : RustType
  attributes : FieldAttributes

/-- The variable for the JSON path of a field. -/
def jsonPathIdent [Lowercase] (ident : Ident) : Ident :=
  "__sv_" ++ Lowercase.toLowercase ident ++ "_path"

structure FieldIdents where
  original : Ident
  cleaned : Ident
  jsonPath : Ident
  deriving DecidableEq

instance : ItemIdents FieldIdents where
  deprecationPrefix := "deprecated_"
  original := FieldIdents.original
  cleaned := FieldIdents.cleaned

/-- The code of a definition, `pub ident: ty`. -/
structure FieldDefinition where
  originalAttributes : List Attribute
  /-- `#[deprecated]`, with a note. -/
  deprecated : Option (Option String)
  ident : Ident
  ty : RustType
  deriving DecidableEq

/-- How a conversion maps the value of a field. -/
inductive ConversionFunction : Type
  | custom (function : Path)
  | into (hint : Option Hint)
  | trackingInto (hint : Option Hint) (jsonPath : Ident)
  deriving DecidableEq

/-- The code of an assignment in a conversion. -/
inductive FieldAssignment : Type
  /-- `ident: default_fn()` -/
  | default (ident : Ident) (defaultFn : Path)
  /-- `lhs: value.rhs`, mapped by a function -/
  | convert (lhs rhs : Ident) (function : ConversionFunction)
  deriving DecidableEq

structure VersionedField where
  originalAttributes : List Attribute
  changes : Option Changeset
  idents : FieldIdents
  hint : Option Hint
  nested : Bool
  ty : RustType

section New

variable [Lowercase] (isIdent : String → Bool)

def FieldIdents.fromIdent (ident : Ident) : Except Failure FieldIdents := do
  let cleaned ← formatIdent isIdent
    (trimStartMatches ident (ItemIdents.deprecationPrefix FieldIdents))
  return { original := ident, cleaned := cleaned, jsonPath := jsonPathIdent cleaned }

/-- Everything that is checked before code is generated. -/
def Field.validate (field : Field) (versions : List VersionDefinition)
    (experimentalConversionTracking : Bool) : Except Failure FieldIdents := do
  let idents ← FieldIdents.fromIdent isIdent field.ident
  field.attributes.common.validate idents field.attributes.attrs
  field.attributes.common.validateVersions versions
  field.attributes.validateNestedFlag experimentalConversionTracking
  return idents

/-- The field with its changeset. -/
def Field.versioned (field : Field) (idents : FieldIdents) (changes : Option Changeset) :
    VersionedField where
  originalAttributes := field.attributes.attrs
  changes := changes
  idents := idents
  hint := field.attributes.hint
  nested := field.attributes.nested
  ty := field.ty

def VersionedField.new (field : Field) (versions : List VersionDefinition)
    (experimentalConversionTracking : Bool) : Except Failure VersionedField := do
  let idents ← field.validate isIdent versions experimentalConversionTracking
  let changes ← field.attributes.common.intoChangeset isIdent idents field.ty
  return field.versioned idents changes

end New

namespace VersionedField

def insertContainerVersions (self : VersionedField) (versions : List VersionDefinition) :
    Except Failure VersionedField :=
  match self.changes with
  | some changes => do
    let changes ← VersionedMacros.insertContainerVersions self.ty changes versions
    return { self with changes := some changes }
  | none => return self

/-- The definition of the field in a version. -/
def generateForContainer (self : VersionedField) (version : VersionDefinition) :
    Except Failure (Option FieldDefinition) :=
  match self.changes with
  | some changes =>
    match get? (M := BTreeMap Version) changes version.inner with
    | none => .error .panic
    | some (.addition ident _ ty) => .ok (some ⟨self.originalAttributes, none, ident, ty⟩)
    | some (.change _ _ _ toIdent _ toType) =>
      .ok (some ⟨self.originalAttributes, none, toIdent, toType⟩)
    | some (.deprecation _ note ident) =>
      .ok (some ⟨self.originalAttributes, some note, ident, self.ty⟩)
    | some .notPresent => .ok none
    | some (.noChange previouslyDeprecated ident ty) =>
      .ok (some ⟨self.originalAttributes, if previouslyDeprecated then some none else none,
        ident, ty⟩)
  | none => .ok (some ⟨self.originalAttributes, none, self.idents.original, self.ty⟩)

section FromImpl

variable [Lowercase]

/-- The function in an assignment: a custom one, or the conversion of the type. -/
def conversionFunction (self : VersionedField) (lhs : Ident) (custom : Option Path) :
    ConversionFunction :=
  match custom with
  | some function => .custom function
  | none =>
    if self.nested then .trackingInto self.hint (jsonPathIdent lhs) else .into self.hint

/-- An assignment to a field. -/
def generateFromImplField (self : VersionedField) (lhs rhs : Ident)
    (customConversionFunction : Option Path) : FieldAssignment :=
  .convert lhs rhs (self.conversionFunction lhs customConversionFunction)

/-- The assignment in the conversion between a version and the next one. -/
def generateForFromImpl (self : VersionedField) (direction : Direction)
    (version nextVersion : VersionDefinition) : Except Failure (Option FieldAssignment) :=
  match self.changes with
  | some changes =>
    match get? (M := BTreeMap Version) changes nextVersion.inner,
      get? (M := BTreeMap Version) changes version.inner with
    | some nextChange, some change =>
      match change, nextChange with
      | .notPresent, .notPresent => .ok none
      | _, .addition ident defaultFn _ =>
        match direction with
        | .upgrade => .ok (some (.default ident defaultFn))
        | .downgrade => .ok none
      | _, .change downgradeWith upgradeWith fromIdent toIdent _ _ =>
        match direction with
        | .upgrade => .ok (some (self.generateFromImplField toIdent fromIdent upgradeWith))
        | .downgrade => .ok (some (self.generateFromImplField fromIdent toIdent downgradeWith))
      | old, next => do
        let nextFieldIdent ← next.getIdent
        let oldFieldIdent ← old.getIdent
        match direction with
        | .upgrade => return some (self.generateFromImplField nextFieldIdent oldFieldIdent none)
        | .downgrade => return some (self.generateFromImplField oldFieldIdent nextFieldIdent none)
    | _, _ => .error .panic
  | none =>
    .ok (some (self.generateFromImplField self.idents.original self.idents.original none))

end FromImpl

end VersionedField

/-! ### Definitions and assignments fit together -/

/-- The types between which the conversion to a status is meant: those of a change, and otherwise
one and the same type. -/
def ItemStatus.ConvertsTypes (fromType toType : RustType) : ItemStatus → Prop
  | change _ _ _ _ fromType' toType' => fromType = fromType' ∧ toType = toType'
  | _ => fromType = toType

/-- What the statuses of two consecutive versions have to say so that the conversion between them
is sound. -/
def ItemStatus.Fits (ty : RustType) :
    ItemStatus → ItemStatus → Prop
  | .notPresent, .notPresent => True
  | old, .addition _ _ _ => old.emitted ty = none
  | old, .change _ _ fromIdent _ fromType _ => old.emitted ty = some (fromIdent, fromType)
  | old, next => ∃ oldIdent nextIdent fieldType, old.emitted ty = some (oldIdent, fieldType) ∧
      next.emitted ty = some (nextIdent, fieldType)

namespace VersionedField

/-- The field that is defined in a version, if any. -/
def Emits (self : VersionedField) (version : VersionDefinition)
    (emitted : Option (Ident × RustType)) : Prop :=
  ∃ definition, self.generateForContainer version = .ok definition ∧
    definition.map (fun d => (d.ident, d.ty)) = emitted

/-- The types between which the conversion from a version to the next one is meant. -/
def ConvertsTypes (self : VersionedField) (nextVersion : VersionDefinition)
    (fromType toType : RustType) : Prop :=
  match self.changes with
  | some changes =>
    ∃ status, get? (M := BTreeMap Version) changes nextVersion.inner = some status ∧
      status.ConvertsTypes fromType toType
  | none => fromType = toType

/-- The conversion between a version and the next one reads the field that is defined in the one
and writes the field that is defined in the other, with their types. Without an assignment the
target has no field; an assignment of a default reads none. -/
def Converts [Lowercase] (self : VersionedField) (version nextVersion : VersionDefinition) : Prop :=
  ∃ old next upgrade downgrade,
    self.Emits version old ∧ self.Emits nextVersion next ∧
    self.generateForFromImpl .upgrade version nextVersion = .ok upgrade ∧
    self.generateForFromImpl .downgrade version nextVersion = .ok downgrade ∧
    (match upgrade with
      | none => next = none
      | some (.default ident _) => old = none ∧ ∃ ty, next = some (ident, ty)
      | some (.convert lhs rhs _) => ∃ fromType toType, old = some (rhs, fromType) ∧
          next = some (lhs, toType) ∧ self.ConvertsTypes nextVersion fromType toType) ∧
    match downgrade with
      | none => old = none
      | some (.default _ _) => False
      | some (.convert lhs rhs _) => ∃ fromType toType, next = some (rhs, toType) ∧
          old = some (lhs, fromType) ∧ self.ConvertsTypes nextVersion fromType toType

section Statuses

variable {self : VersionedField} {changes : Changeset} {version nextVersion : VersionDefinition}
  {old next : ItemStatus}

/-- The definition of a field with a status. -/
theorem emits_iff (hchanges : self.changes = some changes)
    (hold : get? (M := BTreeMap Version) changes version.inner = some old)
    {emitted : Option (Ident × RustType)} :
    self.Emits version emitted ↔ emitted = old.emitted self.ty := by
  rw [Emits, generateForContainer, hchanges]
  simp only [hold]
  rcases old with _ | _ | _ | _ | _ <;> simp [ItemStatus.emitted, eq_comm]

theorem converts_iff [Lowercase] (hchanges : self.changes = some changes)
    (hold : get? (M := BTreeMap Version) changes version.inner = some old)
    (hnext : get? (M := BTreeMap Version) changes nextVersion.inner = some next) :
    self.Converts version nextVersion ↔ ItemStatus.Fits self.ty old next := by
  have htypes (fromType toType : RustType) : self.ConvertsTypes nextVersion fromType toType ↔
      next.ConvertsTypes fromType toType := by
    rw [ConvertsTypes, hchanges]
    simp [hnext]
  simp only [Converts, emits_iff hchanges hold, emits_iff hchanges hnext, htypes,
    generateForFromImpl, hchanges, hold, hnext]
  rcases old with _ | _ | _ | _ | _ <;> rcases next with _ | _ | _ | _ | _ <;>
    simp [ItemStatus.Fits, ItemStatus.emitted, ItemStatus.ConvertsTypes, ItemStatus.getIdent,
      generateFromImplField, bind, Except.bind, pure, Except.pure]
  all_goals exact Eq.symm

end Statuses

end VersionedField

end VersionedMacros

end StackableOperator
