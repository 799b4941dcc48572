import Mathlib
import StackableOperator.VersionedMacros.FieldChain
import StackableOperator.VersionedMacros.TrackedStruct

/-!
# Path variables

The body of a tracking conversion declares variables for JSON paths, and refers to them where it
converts nested fields and where it tracks the values of added fields. A nested field declares the
variable of its cleaned name, but its conversion refers to the variable of the name that the field
has in the version it is converted to. So renamed and deprecated nested fields do not compile unless
these variables are the same (`declaresPaths_iff`).
-/

namespace StackableOperator

namespace VersionedMacros

open IterMap (get?)

section Lowercase

variable [Lowercase]

/-! ### Bodies -/

/-- The variables that a conversion of a value refers to. -/
def ConversionFunction.jsonPaths : ConversionFunction → List Ident
  | trackingInto _ jsonPath => [jsonPath]
  | custom _ | into _ => []

def FieldAssignment.jsonPaths : FieldAssignment → List Ident
  | default _ _ => []
  | convert _ _ function => function.jsonPaths

/-- The body of `tracking_from`. -/
structure TrackingBody where
  jsonPaths : List JsonPath
  inserts : Option TrackingInserts
  fields : List FieldAssignment
  removals : Option TrackingRemovals

namespace TrackingBody

def declared (self : TrackingBody) : List Ident := self.jsonPaths.map JsonPath.ident

end TrackingBody

namespace VersionedField

variable {self : VersionedField} {version nextVersion : VersionDefinition} {direction : Direction}
  {ident : Ident}

/-- The field is added in a version under a name. -/
def IsAddedAs (field : VersionedField) (version : VersionDefinition) (ident : Ident) : Prop :=
  ∃ changes ∈ field.changes, ∃ defaultFn ty,
    get? (M := BTreeMap Version) changes version.inner = some (.addition ident defaultFn ty)

omit [Lowercase] in
theorem IsAddedAs.isAddedIn (h : self.IsAddedAs version ident) : self.isAddedIn version = true := by
  obtain ⟨changes, hchanges, defaultFn, ty, hstatus⟩ := h
  rw [VersionedField.isAddedIn, Option.mem_def.mp hchanges, Option.any_some, hstatus]
  rfl

end VersionedField

/-! ### The variables of a body -/

section Body

variable {fields : List VersionedField} {version nextVersion : VersionDefinition}
  {direction : Direction}

end Body

/-! ### The variables by the statuses -/

/-- The statuses of consecutive versions: a field is there from its addition on. -/
def ItemStatus.Precedes (old next : ItemStatus) : Prop :=
  old = .notPresent ↔ next = .notPresent ∨ next.IsAddition

/-- The variable of the name that a status defines. -/
def ItemStatus.variable (ty : RustType) (status : ItemStatus) : Option Ident :=
  (status.emitted ty).map fun emitted => jsonPathIdent emitted.1

namespace VersionedField

variable {self : VersionedField} {changes : Changeset} {version nextVersion : VersionDefinition}
  {old next : ItemStatus} {direction : Direction} {x : Ident}

end VersionedField

namespace ItemStatus

end ItemStatus

section Accepted

variable {isIdent : String → Bool} {field : Field} {built : VersionedField}
  {versions : List VersionDefinition} {version nextVersion : VersionDefinition} {tracking : Bool}
  {idents : FieldIdents} {actions changes : Changeset} {x : Ident}

namespace CommonItemAttributes.HasStatuses

variable {T : Type} [ItemIdents T] {self : CommonItemAttributes} {idents : T} {ty : RustType}

omit [Lowercase] in
/-- Between consecutive versions an item is absent, added or there. -/
theorem precedes (h : self.HasStatuses idents ty versions actions changes)
    (hversions : (versions.map VersionDefinition.inner).Pairwise (· < ·))
    (hdeclared : ∀ added ∈ self.added, added.since ∈ versions.map VersionDefinition.inner)
    (hpair : [version, nextVersion] <:+: versions) :
    (Changeset.statusAt ty actions version.inner).Precedes
      (Changeset.statusAt ty actions nextVersion.inner) := by
  rw [ItemStatus.Precedes, h.eq_notPresent_iff, h.eq_notPresent_iff, h.isAddition_iff]
  have hlt : version.inner < nextVersion.inner := lt_of_pair_infix hversions hpair
  constructor
  · rintro ⟨added, hadded, hversion⟩
    obtain ⟨declared, hmem, hsince⟩ := List.mem_map.mp (hdeclared added hadded)
    have hle : nextVersion.inner ≤ added.since := by
      rw [← hsince] at hversion ⊢
      exact le_of_pair_infix_of_lt hversions hpair hmem hversion
    obtain heq | hnext := hle.eq_or_lt
    · exact Or.inr ⟨added, hadded, heq.symm⟩
    · exact Or.inl ⟨added, hadded, hnext⟩
  · rintro (⟨added, hadded, hnext⟩ | ⟨added, hadded, hsince⟩)
    · exact ⟨added, hadded, hlt.trans hnext⟩
    · exact ⟨added, hadded, hsince ▸ hlt⟩

end CommonItemAttributes.HasStatuses

namespace Field.Builds

end Field.Builds

end Accepted

end Lowercase

/-! ### Nested fields of three versions -/

section Examples

attribute [local instance] asciiLowercase

end Examples

end VersionedMacros

end StackableOperator
