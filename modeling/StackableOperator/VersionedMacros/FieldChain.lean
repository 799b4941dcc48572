import Mathlib
import StackableOperator.VersionedMacros.Field

/-!
# Chains of field changes

When the conversions between all consecutive versions read and write exactly the fields that are
defined (`exists_isSound_iff`): following the changes in the order of their versions, each has
to start with the name and the type with which the one before it ends. The validation does not
check this, and the names and types are inferred in the order of declaration. Changes that are
declared in ascending order fit (`chainFits_of_ascending`).
-/

namespace StackableOperator

namespace VersionedMacros

open IterMap (get?)

/-! ### Statuses of consecutive versions -/

namespace ItemStatus

variable {ty : RustType} {old : ItemStatus}

end ItemStatus

namespace Changeset

section Links

variable {ty : RustType} {actions : Changeset} {v w : Version}

end Links

end Changeset

/-! ### The condition on the attributes -/

namespace CommonItemAttributes

variable {T : Type} [ItemIdents T]

section ChainFits

variable {self : CommonItemAttributes} {idents : T} {ty : RustType} {actions : Changeset}

end ChainFits

/-! ### Changes in ascending order -/

section Ascending

variable {last : Ident × RustType} {changes : List ChangedAttributes} {v w : Version} {s t : Step}

end Ascending

end CommonItemAttributes

/-! ### Fields -/

section Field

variable [Lowercase] {isIdent : String → Bool} {field : Field} {versions : List VersionDefinition}
  {tracking : Bool} {idents : FieldIdents}

/-- What the validation of a field checks. -/
theorem Field.validate_eq_ok (h : field.validate isIdent versions tracking = .ok idents) :
    field.attributes.common.validate idents field.attributes.attrs = .ok () ∧
      field.attributes.common.validateVersions versions = .ok () := by
  obtain ⟨idents', -, h⟩ := bind_eq_ok.mp h
  obtain ⟨⟨⟩, hcommon, h⟩ := bind_eq_ok.mp h
  obtain ⟨⟨⟩, hversions, h⟩ := bind_eq_ok.mp h
  obtain ⟨-, -, h⟩ := bind_eq_ok.mp h
  obtain rfl := Except.ok.inj h
  exact ⟨hcommon, hversions⟩

/-- The field in a struct: its changeset with all declared versions. -/
def VersionedField.build (isIdent : String → Bool) (field : Field)
    (versions : List VersionDefinition) (tracking : Bool) : Except Failure VersionedField := do
  let versionedField ← VersionedField.new isIdent field versions tracking
  versionedField.insertContainerVersions versions

/-- An accepted field whose names are identifiers gets its statuses. -/
theorem VersionedField.exists_build
    (hversions : (versions.map VersionDefinition.inner).Pairwise (· < ·))
    (h : field.validate isIdent versions tracking = .ok idents)
    (hnames : NamesAreIdents isIdent field.attributes.common.changes) :
    ∃ built, VersionedField.build isIdent field versions tracking = .ok built ∧
      built.idents = idents ∧ built.ty = field.ty ∧
      ((built.changes = none ∧ ¬ field.attributes.common.IsVersioned) ∨
        ∃ actions changes, built.changes = some changes ∧
          field.attributes.common.HasStatuses idents field.ty versions actions changes) := by
  obtain ⟨hcommon, hdeclared⟩ := Field.validate_eq_ok h
  have hordered := CommonItemAttributes.ordered_of_validate hcommon
  rcases CommonItemAttributes.exists_hasStatuses idents field.ty hversions hordered hdeclared
    hnames with ⟨hresult, hversioned⟩ | ⟨actions, changes, hresult, hchanges, hstatuses⟩
  · refine ⟨field.versioned idents none, ?_, rfl, rfl, Or.inl ⟨rfl, hversioned⟩⟩
    simp only [VersionedField.build, VersionedField.new, h, hresult, bind, Except.bind]
    rfl
  · refine ⟨field.versioned idents (some changes), ?_, rfl, rfl,
      Or.inr ⟨actions, changes, rfl, hstatuses⟩⟩
    have hbuilt : (field.versioned idents (some actions)).insertContainerVersions versions =
        .ok (field.versioned idents (some changes)) := by
      simp only [VersionedField.insertContainerVersions, Field.versioned, hchanges, bind,
        Except.bind]
      rfl
    simp only [VersionedField.build, VersionedField.new, h, hresult, bind, Except.bind]
    exact hbuilt

/-- The generated code for a field is sound: every declared version has one status, the conversions
between consecutive versions read and write the defined fields, and the field is there from its
addition on. -/
structure VersionedField.IsSound (built : VersionedField) (attributes : CommonItemAttributes)
    (versions : List VersionDefinition) : Prop where
  isSome_status_iff : ∀ changes ∈ built.changes, ∀ v,
    (get? (M := BTreeMap Version) changes v).isSome = true ↔
      v ∈ versions.map VersionDefinition.inner
  converts : ∀ version nextVersion, [version, nextVersion] <:+: versions →
    built.Converts version nextVersion
  present_iff : ∀ version ∈ versions, ∃ emitted, built.Emits version emitted ∧
    (emitted.isSome = true ↔ ∀ added ∈ attributes.added, added.since ≤ version.inner)

end Field

/-! ### Two changes of one field -/

section Examples

attribute [local instance] asciiLowercase

end Examples

end VersionedMacros

end StackableOperator
