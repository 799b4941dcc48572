import Mathlib
import StackableOperator.VersionedMacros.Item

/-!
# Versioned variants

The code that is generated for a variant of a versioned enum: its definition in every version, and
its arms in the conversions between consecutive versions. An arm binds the data of the variant in
a pattern and converts it in an expression; `isValid_generateArm_iff` says for which data these are
syntactically valid.
-/

namespace StackableOperator

namespace VersionedMacros

open IterMap (get?)

/-! ### The model of the source -/

structure VariantIdents where
  original : Ident
  cleaned : Ident
  deriving DecidableEq

instance : ItemIdents VariantIdents where
  deprecationPrefix := "Deprecated"
  original := VariantIdents.original
  cleaned := VariantIdents.cleaned

/-- The data of a variant. -/
inductive Fields : Type
  | named (fields : List (Ident × RustType))
  | unnamed (types : List RustType)
  | unit
  deriving DecidableEq

structure VariantAttributes where
  common : CommonItemAttributes
  attrs : List Attribute

/-- A variant as the user declares it. -/
structure Variant where
  ident : Ident
  fields : Fields
  attributes : VariantAttributes

/-- The code of a definition. -/
structure VariantDefinition where
  originalAttributes : List Attribute
  /-- `#[deprecated]`, with a note. -/
  deprecated : Option (Option String)
  ident : Ident
  fields : Fields
  deriving DecidableEq

/-- The tokens in the data of a pattern or of an expression. -/
inductive Token : Type
  | ident (name : Ident)
  | punct (c : Char)
  /-- The empty parentheses of a call. -/
  | unit
  deriving DecidableEq

inductive Delimiter : Type
  | parenthesis
  | brace
  deriving DecidableEq

/-- Tokens between delimiters. -/
structure Group where
  delimiter : Delimiter
  tokens : List Token
  deriving DecidableEq

/-- The code of an arm,
`from_module::Enum::FromVariant from_fields => for_module::Enum::ForVariant for_fields`. -/
structure MatchArm where
  enumIdent : Ident
  fromModule : Ident
  fromVariant : Ident
  fromFields : Option Group
  forModule : Ident
  forVariant : Ident
  forFields : Option Group
  deriving DecidableEq

structure VersionedVariant where
  originalAttributes : List Attribute
  changes : Option Changeset
  idents : VariantIdents
  fields : Fields

/-- The type of variants in their changesets, which track no data. -/
def never : RustType := "!"

section New

variable (isIdent isPascalCase : String → Bool)

def VariantIdents.fromIdent (ident : Ident) : Except Failure VariantIdents := do
  let cleaned ← formatIdent isIdent
    (trimStartMatches ident (ItemIdents.deprecationPrefix VariantIdents))
  return { original := ident, cleaned := cleaned }

/-- The messages of a check that failed. -/
def errorsOf : Except Failure Unit → List String
  | .error (.errors messages) => messages
  | _ => []

def VariantAttributes.validate (self : VariantAttributes) (idents : VariantIdents) :
    Except Failure Unit :=
  accumulate [
    errorsOf (self.common.validate idents self.attrs),
    self.common.changes.flatMap fun change =>
      if change.fromName.any fun name => !isPascalCase name then
        ["renamed variant must use PascalCase"]
      else []]

/-- Everything that is checked before code is generated. -/
def Variant.validate (variant : Variant) (versions : List VersionDefinition) :
    Except Failure VariantIdents := do
  let idents ← VariantIdents.fromIdent isIdent variant.ident
  variant.attributes.validate isPascalCase idents
  variant.attributes.common.validateVersions versions
  return idents

/-- The variant with its changeset. -/
def Variant.versioned (variant : Variant) (idents : VariantIdents) (changes : Option Changeset) :
    VersionedVariant where
  originalAttributes := variant.attributes.attrs
  changes := changes
  idents := idents
  fields := variant.fields

def VersionedVariant.new (variant : Variant) (versions : List VersionDefinition) :
    Except Failure VersionedVariant := do
  let idents ← variant.validate isIdent isPascalCase versions
  let changes ← variant.attributes.common.intoChangeset isIdent idents never
  return variant.versioned idents changes

end New

namespace Fields

/-- The variables for the data of a tuple variant. -/
def unnamedFieldIdent (types : List RustType) : List Ident :=
  (List.range types.length).map fun index => "__sv_" ++ toString index

/-- The data of a pattern. -/
def generateFromFields : Fields → Option Group
  | named fields => some ⟨.brace, fields.flatMap fun field => [.ident field.1, .punct ',']⟩
  | unnamed types => some ⟨.parenthesis, (unnamedFieldIdent types).map Token.ident⟩
  | unit => none

/-- The data of an expression. -/
def generateForFields : Fields → Option Group
  | named fields =>
    some ⟨.brace, fields.flatMap fun field => [.ident field.1, .punct ':', .ident field.1,
      .punct '.', .ident "into", .unit, .punct ',']⟩
  | unnamed types =>
    some ⟨.parenthesis, (unnamedFieldIdent types).flatMap fun field =>
      [.ident field, .punct '.', .ident "into", .unit]⟩
  | unit => none

end Fields

namespace VersionedVariant

def insertContainerVersions (self : VersionedVariant) (versions : List VersionDefinition) :
    Except Failure VersionedVariant :=
  match self.changes with
  | some changes => do
    let changes ← VersionedMacros.insertContainerVersions never changes versions
    return { self with changes := some changes }
  | none => return self

/-- The definition of the variant in a version. -/
def generateForContainer (self : VersionedVariant) (version : VersionDefinition) :
    Except Failure (Option VariantDefinition) :=
  match self.changes with
  | some changes =>
    match get? (M := BTreeMap Version) changes version.inner with
    | none => .error .panic
    | some (.addition ident _ _) => .ok (some ⟨self.originalAttributes, none, ident, self.fields⟩)
    | some (.change _ _ _ toIdent _ _) =>
      .ok (some ⟨self.originalAttributes, none, toIdent, self.fields⟩)
    | some (.deprecation _ note ident) =>
      .ok (some ⟨self.originalAttributes, some note, ident, self.fields⟩)
    | some (.noChange previouslyDeprecated ident _) =>
      .ok (some ⟨self.originalAttributes, if previouslyDeprecated then some none else none,
        ident, self.fields⟩)
    | some .notPresent => .ok none
  | none => .ok (some ⟨self.originalAttributes, none, self.idents.original, self.fields⟩)

/-- The arm that converts the variant `fromVariant` of one version to `forVariant` of another. -/
def generateArm (self : VersionedVariant) (enumIdent fromModule fromVariant forModule
    forVariant : Ident) : MatchArm where
  enumIdent := enumIdent
  fromModule := fromModule
  fromVariant := fromVariant
  fromFields := self.fields.generateFromFields
  forModule := forModule
  forVariant := forVariant
  forFields := self.fields.generateForFields

/-- The arm in the conversion between a version and the next one. -/
def generateForFromImpl (self : VersionedVariant) (direction : Direction)
    (version nextVersion : VersionDefinition) (enumIdent : Ident) :
    Except Failure (Option MatchArm) :=
  match self.changes with
  | some changes =>
    match get? (M := BTreeMap Version) changes nextVersion.inner,
      get? (M := BTreeMap Version) changes version.inner with
    | some nextChange, some change =>
      match change, nextChange with
      | _, .addition _ _ _ => .ok none
      | old, next => do
        let nextVariantIdent ← next.getIdent
        let oldVariantIdent ← old.getIdent
        match direction with
        | .upgrade => return some (self.generateArm enumIdent version.module oldVariantIdent
            nextVersion.module nextVariantIdent)
        | .downgrade => return some (self.generateArm enumIdent nextVersion.module
            nextVariantIdent version.module oldVariantIdent)
    | _, _ => .error .panic
  | none =>
    match direction with
    | .upgrade => .ok (some (self.generateArm enumIdent version.module self.idents.original
        nextVersion.module self.idents.original))
    | .downgrade => .ok (some (self.generateArm enumIdent nextVersion.module self.idents.original
        version.module self.idents.original))

end VersionedVariant

/-! ### The syntax of arms -/

/-- Items with commas between them, and possibly one after the last item. -/
inductive Punctuated (item : Ident → List Token) : List Ident → List Token → Prop
  | nil : Punctuated item [] []
  | last (name : Ident) : Punctuated item [name] (item name)
  | cons (name : Ident) {names : List Ident} {tokens : List Token} :
    Punctuated item names tokens →
      Punctuated item (name :: names) (item name ++ .punct ',' :: tokens)

/-- An expression `name.into()`. -/
def intoCall (name : Ident) : List Token := [.ident name, .punct '.', .ident "into", .unit]

/-- The data of an arm is syntactically valid, binds all fields of the variant and converts each
of them. -/
def MatchArm.IsValid (arm : MatchArm) : Fields → Prop
  | .named fields => ∃ pattern expression,
      arm.fromFields = some ⟨.brace, pattern⟩ ∧ arm.forFields = some ⟨.brace, expression⟩ ∧
      Punctuated (fun name => [.ident name]) (fields.map Prod.fst) pattern ∧
      Punctuated (fun name => .ident name :: .punct ':' :: intoCall name) (fields.map Prod.fst)
        expression
  | .unnamed types => ∃ names pattern expression,
      arm.fromFields = some ⟨.parenthesis, pattern⟩ ∧
      arm.forFields = some ⟨.parenthesis, expression⟩ ∧
      names.length = types.length ∧ names.Nodup ∧
      Punctuated (fun name => [.ident name]) names pattern ∧ Punctuated intoCall names expression
  | .unit => arm.fromFields = none ∧ arm.forFields = none

/-- A tuple with several items. -/
def Fields.IsWideTuple : Fields → Prop
  | unnamed types => 2 ≤ types.length
  | _ => False

instance : (fields : Fields) → Decidable fields.IsWideTuple
  | .named _ => instDecidableFalse
  | .unnamed types => inferInstanceAs (Decidable (2 ≤ types.length))
  | .unit => instDecidableFalse

section Syntax

variable {item : Ident → List Token} {names : List Ident} {tokens : List Token}

/-- Without a comma there is at most one item. -/
theorem Punctuated.length_le_one (h : Punctuated item names tokens)
    (hcomma : Token.punct ',' ∉ tokens) : names.length ≤ 1 := by
  rcases h with _ | _ | _
  · exact Nat.zero_le 1
  · exact le_rfl
  · exact absurd (List.mem_append_right _ List.mem_cons_self) hcomma

/-- Items that all end with a comma. -/
theorem punctuated_flatMap (item : Ident → List Token) (names : List Ident) :
    Punctuated item names (names.flatMap fun name => item name ++ [.punct ',']) := by
  induction names with
  | nil => exact .nil
  | cons name names ih =>
    rw [List.flatMap_cons, List.append_assoc]
    exact .cons name ih

/-- **The arm of a variant is valid** unless the variant is a tuple with several items, whose
tokens lack commas. -/
theorem VersionedVariant.isValid_generateArm_iff (self : VersionedVariant)
    (enumIdent fromModule fromVariant forModule forVariant : Ident) :
    (self.generateArm enumIdent fromModule fromVariant forModule forVariant).IsValid self.fields ↔
      ¬ self.fields.IsWideTuple := by
  rcases hfields : self.fields with fields | types | _
  · refine iff_of_true ⟨_, _, congrArg Fields.generateFromFields hfields,
      congrArg Fields.generateForFields hfields, ?_, ?_⟩ id
    · have h := punctuated_flatMap (fun name => [.ident name]) (fields.map Prod.fst)
      rw [List.flatMap_map] at h
      exact h
    · have h := punctuated_flatMap (fun name => .ident name :: .punct ':' :: intoCall name)
        (fields.map Prod.fst)
      rw [List.flatMap_map] at h
      exact h
  · constructor
    · rintro ⟨names, pattern, expression, hpattern, -, hlength, -, hnames, -⟩ hwide
      have htokens := hpattern.symm.trans (congrArg Fields.generateFromFields hfields)
      obtain ⟨-, rfl⟩ := Group.mk.inj (Option.some.inj htokens)
      have hle := hnames.length_le_one (by simp)
      rw [Fields.IsWideTuple] at hwide
      omega
    · intro hwide
      rw [Fields.IsWideTuple, not_le] at hwide
      refine ⟨Fields.unnamedFieldIdent types, _, _, congrArg Fields.generateFromFields hfields,
        congrArg Fields.generateForFields hfields, ?_⟩
      rcases types with _ | ⟨ty, types⟩
      · exact ⟨rfl, List.nodup_nil, .nil, .nil⟩
      · obtain rfl : types = [] := by
          rw [← List.length_eq_zero_iff]
          simpa using hwide
        exact ⟨rfl, List.nodup_singleton _, .last _, .last _⟩
  · exact iff_of_true ⟨congrArg Fields.generateFromFields hfields,
      congrArg Fields.generateForFields hfields⟩ id

end Syntax

/-! ### Variants in consecutive versions -/

section Variant

variable {isIdent isPascalCase : String → Bool} {variant : Variant}
  {versions : List VersionDefinition} {idents : VariantIdents}

/-- What the validation of a variant checks. -/
theorem Variant.validate_eq_ok (h : variant.validate isIdent isPascalCase versions = .ok idents) :
    variant.attributes.common.Ordered ∧
      variant.attributes.common.validateVersions versions = .ok () := by
  obtain ⟨idents', -, h⟩ := bind_eq_ok.mp h
  obtain ⟨⟨⟩, hattributes, h⟩ := bind_eq_ok.mp h
  obtain ⟨⟨⟩, hversions, h⟩ := bind_eq_ok.mp h
  rw [VariantAttributes.validate, accumulate_eq_ok_iff] at hattributes
  have herrors := hattributes _ List.mem_cons_self
  refine ⟨?_, hversions⟩
  rcases hcommon : variant.attributes.common.validate idents' variant.attributes.attrs with e | u
  · rw [hcommon] at herrors
    have hfailure := hcommon
    rw [CommonItemAttributes.validate, accumulate] at hfailure
    split_ifs at hfailure with hempty
    obtain rfl := Except.error.inj hfailure
    exact absurd (List.isEmpty_iff.mpr herrors) hempty
  · exact CommonItemAttributes.ordered_of_validate hcommon

/-- The variant in an enum: its changeset with all declared versions. -/
def VersionedVariant.build (isIdent isPascalCase : String → Bool)
    (versions : List VersionDefinition) (variant : Variant) : Except Failure VersionedVariant := do
  let versionedVariant ← VersionedVariant.new isIdent isPascalCase variant versions
  versionedVariant.insertContainerVersions versions

/-- What an accepted variant becomes: it is the same in all versions, or has a status in each of
them. -/
structure VersionedVariant.IsBuilt (built : VersionedVariant) (variant : Variant)
    (versions : List VersionDefinition) : Prop where
  fields_eq : built.fields = variant.fields
  statuses : (built.changes = none ∧ ¬ variant.attributes.common.IsVersioned) ∨
    ∃ actions changes, built.changes = some changes ∧
      variant.attributes.common.HasStatuses built.idents never versions actions changes

theorem VersionedVariant.exists_build
    (hversions : (versions.map VersionDefinition.inner).Pairwise (· < ·))
    (h : variant.validate isIdent isPascalCase versions = .ok idents)
    (hnames : NamesAreIdents isIdent variant.attributes.common.changes) :
    ∃ built, VersionedVariant.build isIdent isPascalCase versions variant = .ok built ∧
      built.IsBuilt variant versions := by
  obtain ⟨hordered, hdeclared⟩ := Variant.validate_eq_ok h
  rcases CommonItemAttributes.exists_hasStatuses idents never hversions hordered hdeclared hnames
    with ⟨hresult, hversioned⟩ | ⟨actions, changes, hresult, hchanges, hstatuses⟩
  · refine ⟨variant.versioned idents none, ?_, rfl, Or.inl ⟨rfl, hversioned⟩⟩
    simp only [VersionedVariant.build, VersionedVariant.new, h, hresult, bind, Except.bind]
    rfl
  · refine ⟨variant.versioned idents (some changes), ?_, rfl,
      Or.inr ⟨actions, changes, rfl, hstatuses⟩⟩
    have hbuilt : (variant.versioned idents (some actions)).insertContainerVersions versions =
        .ok (variant.versioned idents (some changes)) := by
      simp only [VersionedVariant.insertContainerVersions, Variant.versioned, hchanges, bind,
        Except.bind]
      rfl
    simp only [VersionedVariant.build, VersionedVariant.new, h, hresult, bind, Except.bind]
    exact hbuilt

/-- A name that is no identifier makes the macro panic. -/
theorem VersionedVariant.namesAreIdents_of_build {built : VersionedVariant}
    (h : VersionedVariant.build isIdent isPascalCase versions variant = .ok built) :
    NamesAreIdents isIdent variant.attributes.common.changes := by
  obtain ⟨versionedVariant, hnew, -⟩ := bind_eq_ok.mp h
  obtain ⟨idents, -, hnew⟩ := bind_eq_ok.mp hnew
  obtain ⟨changes, hchanges, -⟩ := bind_eq_ok.mp hnew
  by_contra hnames
  rw [CommonItemAttributes.intoChangeset_eq_error hnames] at hchanges
  exact absurd hchanges (by simp)

end Variant

namespace VersionedVariant

section Statuses

variable {self : VersionedVariant} {changes : Changeset} {version nextVersion : VersionDefinition}
  {old next : ItemStatus}

/-- The definition of a variant with a status. -/
theorem exists_generateForContainer (hchanges : self.changes = some changes)
    (hold : get? (M := BTreeMap Version) changes version.inner = some old) :
    ∃ definition, self.generateForContainer version = .ok definition ∧
      definition.map VariantDefinition.ident = (old.emitted never).map Prod.fst ∧
      ∀ d ∈ definition, d.fields = self.fields := by
  rw [generateForContainer, hchanges]
  simp only [hold]
  rcases old with _ | _ | _ | _ | _ <;> exact ⟨_, rfl, rfl, by simp⟩

/-- The arm between two statuses. -/
theorem generateForFromImpl_eq (hchanges : self.changes = some changes)
    (hold : get? (M := BTreeMap Version) changes version.inner = some old)
    (hnext : get? (M := BTreeMap Version) changes nextVersion.inner = some next)
    (haddition : ¬ next.IsAddition) {oldEmitted nextEmitted : Ident × RustType}
    (holdEmitted : old.emitted never = some oldEmitted)
    (hnextEmitted : next.emitted never = some nextEmitted) (direction : Direction)
    (enumIdent : Ident) :
    self.generateForFromImpl direction version nextVersion enumIdent = .ok (some
      (match direction with
        | .upgrade => self.generateArm enumIdent version.module oldEmitted.1 nextVersion.module
            nextEmitted.1
        | .downgrade => self.generateArm enumIdent nextVersion.module nextEmitted.1 version.module
            oldEmitted.1)) := by
  simp only [generateForFromImpl, hchanges, hold, hnext]
  rcases old with _ | _ | _ | _ | _ <;> rcases next with _ | _ | _ | _ | _ <;>
    simp_all [ItemStatus.emitted, ItemStatus.IsAddition, ItemStatus.getIdent, bind, Except.bind,
      pure, Except.pure]
  all_goals
    obtain rfl := holdEmitted
    obtain rfl := hnextEmitted
    rcases direction <;> rfl

theorem generateForFromImpl_of_isAddition (hchanges : self.changes = some changes)
    (hold : get? (M := BTreeMap Version) changes version.inner = some old)
    (hnext : get? (M := BTreeMap Version) changes nextVersion.inner = some next)
    (haddition : next.IsAddition) (direction : Direction) (enumIdent : Ident) :
    self.generateForFromImpl direction version nextVersion enumIdent = .ok none := by
  simp only [generateForFromImpl, hchanges, hold, hnext]
  rcases next with _ | _ | _ | _ | _
  · rfl
  all_goals exact absurd haddition id

/-- **Absence** in the target version makes the macro panic. -/
theorem generateForFromImpl_of_notPresent (hchanges : self.changes = some changes)
    (hold : get? (M := BTreeMap Version) changes version.inner = some old)
    (hnext : get? (M := BTreeMap Version) changes nextVersion.inner = some .notPresent)
    (direction : Direction) (enumIdent : Ident) :
    self.generateForFromImpl direction version nextVersion enumIdent = .error .panic := by
  simp only [generateForFromImpl, hchanges, hold, hnext]
  rfl

end Statuses

namespace IsBuilt

variable {self : VersionedVariant} {variant : Variant} {versions : List VersionDefinition}
  {version nextVersion : VersionDefinition}

theorem isSome_emitted_iff {attributes : CommonItemAttributes} {idents : VariantIdents}
    {actions changes : Changeset}
    (h : attributes.HasStatuses idents never versions actions changes) {v : Version} :
    ((Changeset.statusAt never actions v).emitted never).isSome = true ↔
      ∀ added ∈ attributes.added, added.since ≤ v := by
  rw [ItemStatus.isSome_emitted_iff, Ne, h.eq_notPresent_iff]
  simp

/-- A variant is defined from the version of its addition on. -/
theorem exists_generateForContainer (h : self.IsBuilt variant versions)
    (hversion : version ∈ versions) :
    ∃ definition, self.generateForContainer version = .ok definition ∧
      (definition.isSome = true ↔
        ∀ added ∈ variant.attributes.common.added, added.since ≤ version.inner) ∧
      ∀ d ∈ definition, d.fields = variant.fields := by
  rcases h.statuses with ⟨hchanges, hversioned⟩ | ⟨actions, changes, hchanges, hstatuses⟩
  · have hadded : variant.attributes.common.added = none := by
      by_contra hne
      exact hversioned (Or.inl hne)
    exact ⟨_, by rw [generateForContainer, hchanges], by simp [hadded],
      by simp [h.fields_eq]⟩
  · obtain ⟨definition, hdefinition, hident, hfields⟩ :=
      VersionedVariant.exists_generateForContainer hchanges (hstatuses.get?_of_mem hversion)
    refine ⟨definition, hdefinition, ?_, fun d hd => (hfields d hd).trans h.fields_eq⟩
    have hsome := congrArg Option.isSome hident
    rw [Option.isSome_map, Option.isSome_map] at hsome
    rw [hsome, isSome_emitted_iff hstatuses]

/-- **The arm of a variant** that is there in the target version: it leads from the variant that is
defined in the source version, if it is, to the one of the target version. -/
theorem exists_generateForFromImpl
    (hversions : (versions.map VersionDefinition.inner).Pairwise (· < ·))
    (hdeclared : variant.attributes.common.validateVersions versions = .ok ())
    (h : self.IsBuilt variant versions) (hpair : [version, nextVersion] <:+: versions)
    (hpresent : ∀ added ∈ variant.attributes.common.added, added.since ≤ nextVersion.inner)
    (enumIdent : Ident) :
    ∃ source target upgrade downgrade,
      self.generateForContainer version = .ok source ∧
      self.generateForContainer nextVersion = .ok target ∧
      self.generateForFromImpl .upgrade version nextVersion enumIdent = .ok upgrade ∧
      self.generateForFromImpl .downgrade version nextVersion enumIdent = .ok downgrade ∧
      Option.Rel (fun definition arm => ∃ t ∈ target, arm = self.generateArm enumIdent
        version.module definition.ident nextVersion.module t.ident) source upgrade := by
  obtain ⟨hmem, hmem'⟩ := mem_of_infix_pair hpair
  rcases h.statuses with ⟨hchanges, -⟩ | ⟨actions, changes, hchanges, hstatuses⟩
  · refine ⟨_, _, _, _, by rw [generateForContainer, hchanges],
      by rw [generateForContainer, hchanges], by simp only [generateForFromImpl, hchanges],
      by simp only [generateForFromImpl, hchanges]; rfl, .some ⟨_, rfl, rfl⟩⟩
  · have hold := hstatuses.get?_of_mem hmem
    have hnext := hstatuses.get?_of_mem hmem'
    obtain ⟨source, hsource, hsourceIdent, -⟩ :=
      VersionedVariant.exists_generateForContainer hchanges hold
    obtain ⟨target, htarget, htargetIdent, -⟩ :=
      VersionedVariant.exists_generateForContainer hchanges hnext
    obtain ⟨nextEmitted, hnextEmitted⟩ :=
      Option.isSome_iff_exists.mp ((isSome_emitted_iff hstatuses).mpr hpresent)
    rw [hnextEmitted] at htargetIdent
    obtain ⟨t, rfl, htIdent⟩ := Option.map_eq_some_iff.mp htargetIdent
    -- a variant that the target version adds has no arm, and no source
    by_cases haddition : (Changeset.statusAt never actions nextVersion.inner).IsAddition
    · refine ⟨source, some t, none, none, hsource, htarget,
        generateForFromImpl_of_isAddition hchanges hold hnext haddition _ _,
        generateForFromImpl_of_isAddition hchanges hold hnext haddition _ _, ?_⟩
      obtain ⟨added, hadded, hsince⟩ := hstatuses.isAddition_iff.mp haddition
      have hlt : version.inner < nextVersion.inner := lt_of_pair_infix hversions hpair
      have habsent := hstatuses.eq_notPresent_iff.mpr ⟨added, hadded, hsince ▸ hlt⟩
      rw [habsent] at hsourceIdent
      rw [Option.map_eq_none_iff.mp hsourceIdent]
      exact .none
    -- any other variant was there before
    · have hpresent' : ∀ added ∈ variant.attributes.common.added,
          added.since ≤ version.inner := by
        intro added hadded
        by_contra hlt
        obtain ⟨declared, hdeclared, hinner⟩ := List.mem_map.mp
          (CommonItemAttributes.mem_of_actionAt hdeclared
            (CommonItemAttributes.actionAt_added self.idents never hadded))
        rw [← hinner, not_le] at hlt
        have hle : nextVersion.inner ≤ declared.inner :=
          le_of_pair_infix_of_lt hversions hpair hdeclared hlt
        have heq := le_antisymm (hpresent added hadded) (hinner ▸ hle)
        exact haddition (hstatuses.isAddition_iff.mpr ⟨added, hadded, heq⟩)
      obtain ⟨oldEmitted, holdEmitted⟩ :=
        Option.isSome_iff_exists.mp ((isSome_emitted_iff hstatuses).mpr hpresent')
      rw [holdEmitted] at hsourceIdent
      obtain ⟨s, rfl, hsIdent⟩ := Option.map_eq_some_iff.mp hsourceIdent
      refine ⟨some s, some t, _, _, hsource, htarget,
        generateForFromImpl_eq hchanges hold hnext haddition holdEmitted hnextEmitted .upgrade _,
        generateForFromImpl_eq hchanges hold hnext haddition holdEmitted hnextEmitted .downgrade _,
        .some ⟨t, rfl, ?_⟩⟩
      rw [hsIdent, htIdent]

/-- **A variant that is absent in both versions** makes the macro panic. -/
theorem generateForFromImpl_eq_error (h : self.IsBuilt variant versions)
    (hpair : [version, nextVersion] <:+: versions) {added : AddedAttributes}
    (hadded : added ∈ variant.attributes.common.added) (hlt : nextVersion.inner < added.since)
    (direction : Direction) (enumIdent : Ident) :
    self.generateForFromImpl direction version nextVersion enumIdent = .error .panic := by
  obtain ⟨hmem, hmem'⟩ := mem_of_infix_pair hpair
  rcases h.statuses with ⟨-, hversioned⟩ | ⟨actions, changes, hchanges, hstatuses⟩
  · rw [Option.mem_def] at hadded
    exact absurd (Or.inl (by simp [hadded])) hversioned
  · have habsent := hstatuses.eq_notPresent_iff.mpr ⟨added, hadded, hlt⟩
    have hnext := hstatuses.get?_of_mem hmem'
    rw [habsent] at hnext
    exact generateForFromImpl_of_notPresent hchanges (hstatuses.get?_of_mem hmem) hnext _ _

end IsBuilt

end VersionedVariant

end VersionedMacros

end StackableOperator
