import Mathlib
import StackableOperator.ForMathlib.Traverse
import StackableOperator.VersionedMacros.Variant

/-!
# Versioned enums

The definitions of an enum in all versions and the conversions between consecutive ones, which match
on the variants. `exists_new_isSound_iff` says when the conversions have one valid arm for every
variant: no variant may be added after the later of two versions, and no tuple with several items
may be there in the earlier one.
-/

namespace StackableOperator

namespace VersionedMacros

/-! ### The model of the source -/

structure ContainerIdents where
  original : Ident
  /-- The parameter of conversions. -/
  parameter : Ident
  deriving DecidableEq

def ContainerIdents.fromIdent [Lowercase] (ident : Ident) : ContainerIdents where
  original := ident
  parameter := "__sv_" ++ Lowercase.toLowercase ident

/-- What is not generated for a container. -/
structure ContainerOptions where
  skipFrom : Bool
  skipObjectFrom : Bool
  skipMergedCrd : Bool
  skipTryConvert : Bool
  deriving DecidableEq

structure CommonContainerData where
  originalAttributes : List Attribute
  options : ContainerOptions
  idents : ContainerIdents

/-- The tokens of generic parameters. -/
structure Generics where
  implGenerics : String
  typeGenerics : String
  whereClause : String
  deriving DecidableEq

/-- An enum as the user declares it. -/
structure ItemEnum where
  ident : Ident
  attrs : List Attribute
  skip : ContainerOptions
  generics : Generics
  variants : List Variant

structure Enum where
  variants : List VersionedVariant
  common : CommonContainerData
  generics : Generics

/-- The code of a definition. -/
structure EnumDefinition where
  originalAttributes : List Attribute
  ident : Ident
  generics : Generics
  variants : List VariantDefinition

/-- The code of a conversion,
`impl From<from_module::Enum> for for_module::Enum`. -/
structure FromImpl where
  automaticallyDerived : Bool
  allowDeprecated : Bool
  enumIdent : Ident
  generics : Generics
  fromModule : Ident
  forModule : Ident
  parameter : Ident
  arms : List MatchArm

/-- The code for a version. -/
structure EnumTokens where
  version : Version
  definition : EnumDefinition
  upgradeFrom : Option FromImpl
  downgradeFrom : Option FromImpl

namespace Enum

def new [Lowercase] (isIdent isPascalCase : String → Bool) (itemEnum : ItemEnum)
    (versions : List VersionDefinition) : Except Failure Enum := do
  let variants ← itemEnum.variants.mapM (VersionedVariant.build isIdent isPascalCase versions)
  return {
    variants := variants
    common := {
      originalAttributes := itemEnum.attrs
      options := itemEnum.skip
      idents := ContainerIdents.fromIdent itemEnum.ident }
    generics := itemEnum.generics }

def generateDefinition (self : Enum) (version : VersionDefinition) :
    Except Failure EnumDefinition := do
  let variants ← self.variants.mapM fun variant => variant.generateForContainer version
  return {
    originalAttributes := self.common.originalAttributes
    ident := self.common.idents.original
    generics := self.generics
    variants := variants.reduceOption }

/-- Some variant is deprecated in a version. -/
def isAnyVariantDeprecated (self : Enum) (version : VersionDefinition) : Bool :=
  self.variants.any fun variant => variant.changes.any fun changes =>
    match IterMap.get? (M := BTreeMap Version) changes version.inner with
    | some (.deprecation _ _ _) | some (.noChange true _ _) => true
    | _ => false

def generateFromImpl (self : Enum) (addAttributes : Bool) (direction : Direction)
    (version : VersionDefinition) (nextVersion : Option VersionDefinition) :
    Except Failure (Option FromImpl) :=
  if version.skipFrom || self.common.options.skipFrom then .ok none
  else
    match nextVersion with
    | none => .ok none
    | some nextVersion => do
      let arms ← self.variants.mapM fun variant =>
        variant.generateForFromImpl direction version nextVersion self.common.idents.original
      return some {
        automaticallyDerived := !addAttributes
        allowDeprecated := version.deprecated.isSome || nextVersion.deprecated.isSome ||
          self.isAnyVariantDeprecated version || self.isAnyVariantDeprecated nextVersion
        enumIdent := self.common.idents.original
        generics := self.generics
        fromModule :=
          match direction with
          | .upgrade => version.module
          | .downgrade => nextVersion.module
        forModule :=
          match direction with
          | .upgrade => nextVersion.module
          | .downgrade => version.module
        parameter := self.common.idents.parameter
        arms := arms.reduceOption }

def generateTokens (self : Enum) (addAttributes : Bool) :
    List VersionDefinition → Except Failure (List EnumTokens)
  | [] => .ok []
  | version :: versions => do
    let nextVersion := versions.head?
    let definition ← self.generateDefinition version
    let upgradeFrom ← self.generateFromImpl addAttributes .upgrade version nextVersion
    let downgradeFrom ← self.generateFromImpl addAttributes .downgrade version nextVersion
    let tokens ← generateTokens self addAttributes versions
    return ⟨version.inner, definition, upgradeFrom, downgradeFrom⟩ :: tokens

end Enum

/-! ### Sound conversions -/

/-- The variant is no tuple with several items, or is added after a version. -/
def Variant.IsPlainIn (variant : Variant) (version : VersionDefinition) : Prop :=
  variant.fields.IsWideTuple →
    ∃ added ∈ variant.attributes.common.added, version.inner < added.since

/-- Between two versions with a conversion, all variants are there in the later one, and none in
the earlier one is a tuple with several items. -/
def ItemEnum.Convertible (itemEnum : ItemEnum) (versions : List VersionDefinition) : Prop :=
  ∀ version nextVersion, [version, nextVersion] <:+: versions →
    version.skipFrom = false ∧ itemEnum.skip.skipFrom = false →
      (∀ variant ∈ itemEnum.variants, ∀ added ∈ variant.attributes.common.added,
        added.since ≤ nextVersion.inner) ∧
      ∀ variant ∈ itemEnum.variants, variant.IsPlainIn version

/-- The arm leads from a variant to one with the same data that is defined in the next version, and
is syntactically valid. -/
structure MatchArm.Upgrades (arm : MatchArm) (version nextVersion : VersionDefinition)
    (enumIdent : Ident) (source : VariantDefinition) (targets : List VariantDefinition) :
    Prop where
  enumIdent_eq : arm.enumIdent = enumIdent
  fromModule_eq : arm.fromModule = version.module
  fromVariant_eq : arm.fromVariant = source.ident
  forModule_eq : arm.forModule = nextVersion.module
  exists_target : ∃ target ∈ targets, arm.forVariant = target.ident ∧
    target.fields = source.fields
  isValid : arm.IsValid source.fields

namespace Enum

/-- All code is generated, and the upgrades have one arm for every variant, in order. -/
structure IsSound (enum : Enum) (addAttributes : Bool) (versions : List VersionDefinition) :
    Prop where
  exists_tokens : ∃ tokens, enum.generateTokens addAttributes versions = .ok tokens
  upgrades : ∀ version nextVersion, [version, nextVersion] <:+: versions → ∀ fromImpl,
    enum.generateFromImpl addAttributes .upgrade version (some nextVersion) =
        .ok (some fromImpl) →
      ∃ source target, enum.generateDefinition version = .ok source ∧
        enum.generateDefinition nextVersion = .ok target ∧
        List.Forall₂ (fun definition arm => arm.Upgrades version nextVersion
          enum.common.idents.original definition target.variants) source.variants fromImpl.arms

section Tokens

variable {self : Enum} {addAttributes : Bool} {versions : List VersionDefinition}

/-- Code for all versions is generated if it is for each version and each pair. -/
theorem exists_generateTokens_iff :
    (∃ tokens, self.generateTokens addAttributes versions = .ok tokens) ↔
      (∀ version ∈ versions, ∃ definition, self.generateDefinition version = .ok definition) ∧
        ∀ version nextVersion, [version, nextVersion] <:+: versions → ∀ direction, ∃ fromImpl,
          self.generateFromImpl addAttributes direction version (some nextVersion) =
            .ok fromImpl := by
  have hlast (direction : Direction) (version : VersionDefinition) :
      self.generateFromImpl addAttributes direction version none = .ok none := by
    rw [generateFromImpl]
    split_ifs <;> rfl
  induction versions with
  | nil => simp [generateTokens]
  | cons version versions ih =>
    constructor
    · rintro ⟨tokens, h⟩
      obtain ⟨definition, hdefinition, h⟩ := bind_eq_ok.mp h
      obtain ⟨upgradeFrom, hupgrade, h⟩ := bind_eq_ok.mp h
      obtain ⟨downgradeFrom, hdowngrade, h⟩ := bind_eq_ok.mp h
      obtain ⟨tokens, htokens, -⟩ := bind_eq_ok.mp h
      obtain ⟨hdefinitions, hpairs⟩ := ih.mp ⟨tokens, htokens⟩
      refine ⟨List.forall_mem_cons.mpr ⟨⟨definition, hdefinition⟩, hdefinitions⟩, ?_⟩
      intro first second hpair direction
      rcases List.infix_cons_iff.mp hpair with hhead | hpair
      · obtain ⟨rfl, rest, rfl⟩ := List.cons_prefix_cons.mp hhead
        rcases direction
        · exact ⟨upgradeFrom, hupgrade⟩
        · exact ⟨downgradeFrom, hdowngrade⟩
      · exact hpairs first second hpair direction
    · rintro ⟨hdefinitions, hpairs⟩
      obtain ⟨⟨definition, hdefinition⟩, hdefinitions⟩ := List.forall_mem_cons.mp hdefinitions
      obtain ⟨tokens, htokens⟩ := ih.mpr ⟨hdefinitions, fun first second hpair =>
        hpairs first second (hpair.trans (List.suffix_cons _ _).isInfix)⟩
      have hhead : ∀ direction, ∃ fromImpl,
          self.generateFromImpl addAttributes direction version versions.head? =
            .ok fromImpl := by
        intro direction
        rcases versions with _ | ⟨nextVersion, rest⟩
        · exact ⟨none, hlast direction version⟩
        · exact hpairs version nextVersion ⟨[], rest, rfl⟩ direction
      obtain ⟨upgradeFrom, hupgrade⟩ := hhead .upgrade
      obtain ⟨downgradeFrom, hdowngrade⟩ := hhead .downgrade
      exact ⟨_, bind_eq_ok.mpr ⟨definition, hdefinition, bind_eq_ok.mpr ⟨upgradeFrom, hupgrade,
        bind_eq_ok.mpr ⟨downgradeFrom, hdowngrade, bind_eq_ok.mpr ⟨tokens, htokens, rfl⟩⟩⟩⟩⟩

end Tokens

/-! ### When the conversions are sound -/

section IsSound

variable {isIdent isPascalCase : String → Bool} {itemEnum : ItemEnum}
  {versions : List VersionDefinition} {addAttributes : Bool} {self : Enum}

theorem generateDefinition_eq_ok {version : VersionDefinition} {definition : EnumDefinition}
    (h : self.generateDefinition version = .ok definition) :
    ∃ variants, List.Forall₂ (fun variant d => VersionedVariant.generateForContainer variant
        version = .ok d) self.variants variants ∧
      definition.variants = variants.reduceOption := by
  obtain ⟨variants, hvariants, h⟩ := bind_eq_ok.mp h
  obtain rfl := Except.ok.inj h
  exact ⟨variants, mapM_eq_ok_iff.mp hvariants, rfl⟩

theorem generateFromImpl_eq_ok {direction : Direction} {version nextVersion : VersionDefinition}
    {fromImpl : FromImpl} (h : self.generateFromImpl addAttributes direction version
      (some nextVersion) = .ok (some fromImpl)) :
    ∃ arms, List.Forall₂ (fun variant arm => VersionedVariant.generateForFromImpl variant
        direction version nextVersion self.common.idents.original = .ok arm) self.variants arms ∧
      fromImpl.arms = arms.reduceOption := by
  rw [generateFromImpl.eq_def] at h
  split_ifs at h with hskip
  · exact absurd h (by simp)
  · obtain ⟨arms, harms, h⟩ := bind_eq_ok.mp h
    obtain rfl := Option.some.inj (Except.ok.inj h)
    exact ⟨arms, mapM_eq_ok_iff.mp harms, rfl⟩

/-- The variants of an enum are what the declared ones become. -/
structure IsBuilt (enum : Enum) (itemEnum : ItemEnum) (versions : List VersionDefinition) :
    Prop where
  options_eq : enum.common.options = itemEnum.skip
  exists_variant : ∀ built ∈ enum.variants, ∃ variant ∈ itemEnum.variants,
    built.IsBuilt variant versions
  exists_built : ∀ variant ∈ itemEnum.variants, ∃ built ∈ enum.variants,
    built.IsBuilt variant versions

/-- The definition and the arm of a variant that is there in the target version. -/
theorem rel_upgrades_iff {built : VersionedVariant} {variant : Variant}
    (hversions : (versions.map VersionDefinition.inner).Pairwise (· < ·))
    (hdeclared : variant.attributes.common.validateVersions versions = .ok ())
    (hbuilt : built.IsBuilt variant versions) {version nextVersion : VersionDefinition}
    (hpair : [version, nextVersion] <:+: versions)
    (hpresent : ∀ added ∈ variant.attributes.common.added, added.since ≤ nextVersion.inner)
    {enumIdent : Ident} {targets : List VariantDefinition}
    (htargets : ∀ t, built.generateForContainer nextVersion = .ok (some t) → t ∈ targets)
    {source : Option VariantDefinition} {arm : Option MatchArm}
    (hsource : built.generateForContainer version = .ok source)
    (harm : built.generateForFromImpl .upgrade version nextVersion enumIdent = .ok arm) :
    source.isSome = arm.isSome ∧
      (Option.Rel (fun definition a => MatchArm.Upgrades a version nextVersion enumIdent definition
          targets) source arm ↔
        variant.IsPlainIn version) := by
  obtain ⟨hmem, hmem'⟩ := mem_of_infix_pair hpair
  obtain ⟨source', target, arm', -, hsource', htarget, harm', -, hrel⟩ :=
    hbuilt.exists_generateForFromImpl hversions hdeclared hpair hpresent enumIdent
  obtain rfl := Except.ok.inj (hsource.symm.trans hsource')
  obtain rfl := Except.ok.inj (harm.symm.trans harm')
  obtain ⟨source', hsource', hpresent', hfields⟩ := hbuilt.exists_generateForContainer hmem
  obtain rfl := Except.ok.inj (hsource.symm.trans hsource')
  obtain ⟨target', htarget', -, htargetFields⟩ := hbuilt.exists_generateForContainer hmem'
  obtain rfl := Except.ok.inj (htarget.symm.trans htarget')
  -- either the variant is defined in both versions, or in the later one only
  rcases hrel with @⟨definition, a, t, ht, rfl⟩ | _
  · refine ⟨rfl, ?_⟩
    have habsent : ¬ ∃ added ∈ variant.attributes.common.added, version.inner < added.since := by
      rintro ⟨added, hadded, hlt⟩
      exact absurd hlt (not_lt.mpr (hpresent'.mp rfl added hadded))
    -- the arm is valid iff the pattern fits the fields
    have hvalid := built.isValid_generateArm_iff enumIdent version.module definition.ident
      nextVersion.module t.ident
    rw [hbuilt.fields_eq] at hvalid
    rw [Variant.IsPlainIn, imp_iff_not habsent, ← hvalid]
    constructor
    · rintro ⟨h⟩
      exact hfields definition rfl ▸ h.isValid
    · intro h
      refine .some ⟨rfl, rfl, rfl, rfl, ⟨t, htargets t (ht ▸ htarget), rfl, ?_⟩, ?_⟩
      · rw [htargetFields t ht, hfields definition rfl]
      · rw [hfields definition rfl]
        exact h
  · refine ⟨rfl, iff_of_true .none fun _ => ?_⟩
    by_contra hnone
    have hsome := hpresent'.mpr fun added hadded =>
      not_lt.mp fun hlt => hnone ⟨added, hadded, hlt⟩
    exact absurd hsome (by simp)

/-- The arms of an upgrade, if all variants are there in the target version. -/
theorem forall₂_upgrades_iff
    (hversions : (versions.map VersionDefinition.inner).Pairwise (· < ·))
    (hdeclared : ∀ variant ∈ itemEnum.variants,
      variant.attributes.common.validateVersions versions = .ok ())
    (hbuilt : self.IsBuilt itemEnum versions) {version nextVersion : VersionDefinition}
    (hpair : [version, nextVersion] <:+: versions)
    (hpresent : ∀ variant ∈ itemEnum.variants, ∀ added ∈ variant.attributes.common.added,
      added.since ≤ nextVersion.inner)
    {source target : EnumDefinition} {fromImpl : FromImpl}
    (hsource : self.generateDefinition version = .ok source)
    (htarget : self.generateDefinition nextVersion = .ok target)
    (hfromImpl : self.generateFromImpl addAttributes .upgrade version (some nextVersion) =
      .ok (some fromImpl)) :
    List.Forall₂ (fun definition arm => MatchArm.Upgrades arm version nextVersion
        self.common.idents.original definition target.variants) source.variants fromImpl.arms ↔
      ∀ variant ∈ itemEnum.variants, variant.IsPlainIn version := by
  obtain ⟨sources, hsources, hsourceVariants⟩ := generateDefinition_eq_ok hsource
  obtain ⟨targets, htargets, htargetVariants⟩ := generateDefinition_eq_ok htarget
  obtain ⟨arms, harms, hfromImplArms⟩ := generateFromImpl_eq_ok hfromImpl
  -- the arms lead to variants of the later version
  have htargetMem : ∀ built ∈ self.variants, ∀ t,
      built.generateForContainer nextVersion = .ok (some t) → t ∈ target.variants := by
    intro built hmem t ht
    rw [htargetVariants, List.reduceOption_mem_iff]
    exact mem_of_mapM htargets hmem ht
  -- a variant has an arm iff it has a definition, so the lists are aligned
  have hsome : List.Forall₂ (fun s a => s.isSome = a.isSome) sources arms := by
    rw [forall₂_mapM_iff hsources harms]
    intro built hmem s a hs ha
    obtain ⟨variant, hvariant, hvariantBuilt⟩ := hbuilt.exists_variant built hmem
    exact (rel_upgrades_iff hversions (hdeclared variant hvariant) hvariantBuilt hpair
      (hpresent variant hvariant) (htargetMem built hmem) hs ha).1
  rw [hsourceVariants, hfromImplArms, forall₂_reduceOption_iff hsome,
    forall₂_mapM_iff hsources harms]
  constructor
  · intro h variant hvariant
    obtain ⟨built, hmem, hvariantBuilt⟩ := hbuilt.exists_built variant hvariant
    obtain ⟨s, -, a, -, hs, -, ha, -, -⟩ := hvariantBuilt.exists_generateForFromImpl hversions
      (hdeclared variant hvariant) hpair (hpresent variant hvariant) self.common.idents.original
    exact (rel_upgrades_iff hversions (hdeclared variant hvariant) hvariantBuilt hpair
      (hpresent variant hvariant) (htargetMem built hmem) hs ha).2.mp (h built hmem s a hs ha)
  · intro h built hmem s a hs ha
    obtain ⟨variant, hvariant, hvariantBuilt⟩ := hbuilt.exists_variant built hmem
    exact (rel_upgrades_iff hversions (hdeclared variant hvariant) hvariantBuilt hpair
      (hpresent variant hvariant) (htargetMem built hmem) hs ha).2.mpr (h variant hvariant)

/-- Code for a conversion is generated iff it is skipped or all variants are there in the target
version. -/
theorem exists_generateFromImpl_iff
    (hversions : (versions.map VersionDefinition.inner).Pairwise (· < ·))
    (hdeclared : ∀ variant ∈ itemEnum.variants,
      variant.attributes.common.validateVersions versions = .ok ())
    (hbuilt : self.IsBuilt itemEnum versions) {version nextVersion : VersionDefinition}
    (hpair : [version, nextVersion] <:+: versions) (direction : Direction) :
    (∃ fromImpl, self.generateFromImpl addAttributes direction version (some nextVersion) =
        .ok fromImpl) ↔
      (version.skipFrom || itemEnum.skip.skipFrom) = true ∨
        ∀ variant ∈ itemEnum.variants, ∀ added ∈ variant.attributes.common.added,
          added.since ≤ nextVersion.inner := by
  rw [generateFromImpl.eq_def, hbuilt.options_eq]
  split_ifs with hskip
  · exact iff_of_true ⟨none, rfl⟩ (Or.inl hskip)
  · rw [or_iff_right hskip]
    constructor
    · rintro ⟨fromImpl, h⟩ variant hvariant added hadded
      obtain ⟨arms, harms, -⟩ := bind_eq_ok.mp h
      by_contra hlt
      obtain ⟨built, hmem, hvariantBuilt⟩ := hbuilt.exists_built variant hvariant
      obtain ⟨a, ha⟩ := exists_mapM_eq_ok_iff.mp ⟨arms, harms⟩ built hmem
      rw [hvariantBuilt.generateForFromImpl_eq_error hpair hadded (not_le.mp hlt)] at ha
      exact absurd ha (by simp)
    · intro hpresent
      have harms : ∀ built ∈ self.variants, ∃ a, built.generateForFromImpl direction version
          nextVersion self.common.idents.original = .ok a := by
        intro built hmem
        obtain ⟨variant, hvariant, hvariantBuilt⟩ := hbuilt.exists_variant built hmem
        obtain ⟨-, -, upgrade, downgrade, -, -, hupgrade, hdowngrade, -⟩ :=
          hvariantBuilt.exists_generateForFromImpl hversions (hdeclared variant hvariant) hpair
            (hpresent variant hvariant) self.common.idents.original
        rcases direction
        · exact ⟨upgrade, hupgrade⟩
        · exact ⟨downgrade, hdowngrade⟩
      obtain ⟨arms, harms⟩ := exists_mapM_eq_ok_iff.mpr harms
      exact ⟨_, bind_eq_ok.mpr ⟨arms, harms, rfl⟩⟩

theorem exists_generateDefinition (hbuilt : self.IsBuilt itemEnum versions)
    {version : VersionDefinition} (hversion : version ∈ versions) :
    ∃ definition, self.generateDefinition version = .ok definition := by
  obtain ⟨variants, hvariants⟩ : ∃ variants,
      self.variants.mapM (fun variant => variant.generateForContainer version) = .ok variants := by
    rw [exists_mapM_eq_ok_iff]
    intro built hmem
    obtain ⟨variant, -, hvariantBuilt⟩ := hbuilt.exists_variant built hmem
    obtain ⟨definition, hdefinition, -⟩ := hvariantBuilt.exists_generateForContainer hversion
    exact ⟨definition, hdefinition⟩
  exact ⟨_, bind_eq_ok.mpr ⟨variants, hvariants, rfl⟩⟩

/-- The conversions of an enum are sound iff they are skipped or have all variants. -/
theorem isSound_iff (hversions : (versions.map VersionDefinition.inner).Pairwise (· < ·))
    (hdeclared : ∀ variant ∈ itemEnum.variants,
      variant.attributes.common.validateVersions versions = .ok ())
    (hbuilt : self.IsBuilt itemEnum versions) :
    self.IsSound addAttributes versions ↔ itemEnum.Convertible versions := by
  constructor
  · intro h version nextVersion hpair hskip
    obtain ⟨hmem, hmem'⟩ := mem_of_infix_pair hpair
    obtain ⟨fromImpl, hfromImpl⟩ :=
      (exists_generateTokens_iff.mp h.exists_tokens).2 version nextVersion hpair .upgrade
    have hpresent := ((exists_generateFromImpl_iff hversions hdeclared hbuilt hpair
      .upgrade).mp ⟨fromImpl, hfromImpl⟩).resolve_left (by simp [hskip])
    refine ⟨hpresent, ?_⟩
    obtain ⟨fromImpl, rfl⟩ : ∃ fromImpl', fromImpl = some fromImpl' := by
      rw [generateFromImpl.eq_def, hbuilt.options_eq, if_neg (by simp [hskip])] at hfromImpl
      obtain ⟨arms, -, hfromImpl⟩ := bind_eq_ok.mp hfromImpl
      exact ⟨_, (Except.ok.inj hfromImpl).symm⟩
    obtain ⟨source, target, hsource, htarget, harms⟩ :=
      h.upgrades version nextVersion hpair fromImpl hfromImpl
    exact (forall₂_upgrades_iff hversions hdeclared hbuilt hpair hpresent hsource htarget
      hfromImpl).mp harms
  · intro h
    refine ⟨?_, ?_⟩
    · rw [exists_generateTokens_iff]
      refine ⟨fun version hversion => exists_generateDefinition hbuilt hversion, ?_⟩
      intro version nextVersion hpair direction
      rw [exists_generateFromImpl_iff hversions hdeclared hbuilt hpair]
      by_cases hskip : (version.skipFrom || itemEnum.skip.skipFrom) = true
      · exact Or.inl hskip
      · exact Or.inr (h version nextVersion hpair (by simpa using hskip)).1
    · intro version nextVersion hpair fromImpl hfromImpl
      obtain ⟨hmem, hmem'⟩ := mem_of_infix_pair hpair
      have hskip : ¬ (version.skipFrom || itemEnum.skip.skipFrom) = true := by
        intro hskip
        rw [generateFromImpl.eq_def, hbuilt.options_eq, if_pos hskip] at hfromImpl
        exact absurd hfromImpl (by simp)
      obtain ⟨hpresent, hplain⟩ := h version nextVersion hpair (by simpa using hskip)
      obtain ⟨source, hsource⟩ := exists_generateDefinition hbuilt hmem
      obtain ⟨target, htarget⟩ := exists_generateDefinition hbuilt hmem'
      exact ⟨source, target, hsource, htarget, (forall₂_upgrades_iff hversions hdeclared hbuilt
        hpair hpresent hsource htarget hfromImpl).mpr hplain⟩

/-- An accepted enum whose names are identifiers. -/
theorem exists_new [Lowercase]
    (hversions : (versions.map VersionDefinition.inner).Pairwise (· < ·))
    (hvalidate : ∀ variant ∈ itemEnum.variants, ∃ idents,
      variant.validate isIdent isPascalCase versions = .ok idents)
    (hnames : ∀ variant ∈ itemEnum.variants,
      NamesAreIdents isIdent variant.attributes.common.changes) :
    ∃ built, Enum.new isIdent isPascalCase itemEnum versions = .ok built ∧
      built.IsBuilt itemEnum versions := by
  have hbuild : ∀ variant ∈ itemEnum.variants, ∃ built,
      VersionedVariant.build isIdent isPascalCase versions variant = .ok built ∧
        built.IsBuilt variant versions := by
    intro variant hvariant
    obtain ⟨idents, h⟩ := hvalidate variant hvariant
    exact VersionedVariant.exists_build hversions h (hnames variant hvariant)
  obtain ⟨variants, hvariants⟩ := exists_mapM_eq_ok_iff.mpr fun variant hvariant =>
    (hbuild variant hvariant).imp fun built h => h.1
  refine ⟨_, bind_eq_ok.mpr ⟨variants, hvariants, rfl⟩, rfl, ?_, ?_⟩
  · intro built hmem
    obtain ⟨variant, hvariant, hb⟩ := exists_of_mem_mapM (mapM_eq_ok_iff.mp hvariants) hmem
    obtain ⟨built', hbuilt', hvariantBuilt⟩ := hbuild variant hvariant
    obtain rfl := Except.ok.inj (hb.symm.trans hbuilt')
    exact ⟨variant, hvariant, hvariantBuilt⟩
  · intro variant hvariant
    obtain ⟨built, hbuilt, hvariantBuilt⟩ := hbuild variant hvariant
    exact ⟨built, mem_of_mapM (mapM_eq_ok_iff.mp hvariants) hvariant hbuilt, hvariantBuilt⟩

/-- A name that is no identifier makes the macro panic. -/
theorem namesAreIdents_of_new [Lowercase] {built : Enum}
    (h : Enum.new isIdent isPascalCase itemEnum versions = .ok built) :
    ∀ variant ∈ itemEnum.variants,
      NamesAreIdents isIdent variant.attributes.common.changes := by
  intro variant hvariant
  obtain ⟨variants, hvariants, -⟩ := bind_eq_ok.mp h
  obtain ⟨b, hb⟩ := exists_mapM_eq_ok_iff.mp ⟨variants, hvariants⟩ variant hvariant
  exact VersionedVariant.namesAreIdents_of_build hb

theorem validateVersions_of_validate (hvalidate : ∀ variant ∈ itemEnum.variants, ∃ idents,
      variant.validate isIdent isPascalCase versions = .ok idents) :
    ∀ variant ∈ itemEnum.variants,
      variant.attributes.common.validateVersions versions = .ok () := by
  intro variant hvariant
  obtain ⟨idents, h⟩ := hvalidate variant hvariant
  exact (Variant.validate_eq_ok h).2

/-- **The conversions of an accepted enum** are generated, with one valid arm for every variant, iff
the names in its changes are identifiers and the enum is convertible. -/
theorem exists_new_isSound_iff [Lowercase] {arguments : List VersionArguments}
    {allowUnsorted : Bool}
    (harguments : ModuleAttributes.validate arguments allowUnsorted = .ok versions)
    (hvalidate : ∀ variant ∈ itemEnum.variants, ∃ idents,
      variant.validate isIdent isPascalCase versions = .ok idents) :
    (∃ built, Enum.new isIdent isPascalCase itemEnum versions = .ok built ∧
        built.IsSound addAttributes versions) ↔
      (∀ variant ∈ itemEnum.variants,
        NamesAreIdents isIdent variant.attributes.common.changes) ∧
        itemEnum.Convertible versions := by
  obtain ⟨-, hversions⟩ := ModuleAttributes.validate_eq_ok harguments
  have hdeclared := validateVersions_of_validate hvalidate
  constructor
  · rintro ⟨built, hbuilt, hsound⟩
    have hnames := namesAreIdents_of_new hbuilt
    obtain ⟨built', hbuilt', hisBuilt⟩ := exists_new hversions hvalidate hnames
    obtain rfl := Except.ok.inj (hbuilt.symm.trans hbuilt')
    exact ⟨hnames, (isSound_iff hversions hdeclared hisBuilt).mp hsound⟩
  · rintro ⟨hnames, hconvertible⟩
    obtain ⟨built, hbuilt, hisBuilt⟩ := exists_new hversions hvalidate hnames
    exact ⟨built, hbuilt, (isSound_iff hversions hdeclared hisBuilt).mpr hconvertible⟩

end IsSound

/-! ### Two enums -/

section Examples

attribute [local instance] asciiLowercase

/-- One capitalised word. -/
def isCapitalized (name : String) : Bool :=
  match name.toList with
  | [] => false
  | c :: cs => c.isUpper && cs.all Char.isLower

/-- A variant without data. -/
def unitVariant (ident : Ident) (added : Option AddedAttributes)
    (changes : List ChangedAttributes) : Variant where
  ident := ident
  fields := .unit
  attributes :=
    { common := { added := added, changes := changes, deprecated := none }, attrs := [] }

def fooEnum (variants : List Variant) : ItemEnum where
  ident := "Foo"
  attrs := []
  skip := ⟨false, false, false, false⟩
  generics := ⟨"", "", ""⟩
  variants := variants

/-- A variant that is named `Baz` before `v1beta1`. -/
def renamedVariants : List Variant :=
  [unitVariant "Bar" none [renamedIn ⟨1, some (.beta 1)⟩ "Baz"]]

/-- A variant that is added in `v1`. -/
def lateVariants : List Variant :=
  [unitVariant "Bar" (some ⟨⟨1, none⟩, defaultDefaultFn⟩) []]

theorem exists_isSound_renamedVariants :
    ∃ built, Enum.new isAsciiIdent isCapitalized (fooEnum renamedVariants) threeVersions =
        .ok built ∧ built.IsSound false threeVersions := by
  have harguments : ModuleAttributes.validate threeArguments false = .ok threeVersions := rfl
  have hvalidate : ∀ variant ∈ (fooEnum renamedVariants).variants, ∃ idents,
      variant.validate isAsciiIdent isCapitalized threeVersions = .ok idents := by
    simp only [fooEnum, renamedVariants, List.forall_mem_singleton]
    exact ⟨⟨"Bar", "Bar"⟩, by decide +kernel⟩
  refine (exists_new_isSound_iff harguments hvalidate).mpr ⟨?_, ?_⟩
  · simp only [fooEnum, renamedVariants, List.forall_mem_singleton, NamesAreIdents, unitVariant,
      renamedIn]
    decide +kernel
  · intro version nextVersion _ _
    simp only [fooEnum, renamedVariants, List.forall_mem_singleton]
    exact ⟨by simp [unitVariant], fun hwide => absurd hwide id⟩

/-- A variant that is added after the second version: the conversion between the first two versions
makes the macro panic. -/
theorem not_isSound_lateVariants :
    ModuleAttributes.validate threeArguments false = .ok threeVersions ∧
      (∀ variant ∈ (fooEnum lateVariants).variants, ∃ idents,
        variant.validate isAsciiIdent isCapitalized threeVersions = .ok idents) ∧
      ¬ ∃ built, Enum.new isAsciiIdent isCapitalized (fooEnum lateVariants) threeVersions =
        .ok built ∧ built.IsSound false threeVersions := by
  have harguments : ModuleAttributes.validate threeArguments false = .ok threeVersions := rfl
  have hvalidate : ∀ variant ∈ (fooEnum lateVariants).variants, ∃ idents,
      variant.validate isAsciiIdent isCapitalized threeVersions = .ok idents := by
    simp only [fooEnum, lateVariants, List.forall_mem_singleton]
    exact ⟨⟨"Bar", "Bar"⟩, by decide +kernel⟩
  refine ⟨harguments, hvalidate, ?_⟩
  rintro ⟨built, hbuilt, hsound⟩
  obtain ⟨-, hversions⟩ := ModuleAttributes.validate_eq_ok harguments
  obtain ⟨built', hbuilt', hisBuilt⟩ :=
    exists_new hversions hvalidate (namesAreIdents_of_new hbuilt)
  obtain rfl := Except.ok.inj (hbuilt.symm.trans hbuilt')
  have hconvertible :=
    (isSound_iff hversions (validateVersions_of_validate hvalidate) hisBuilt).mp hsound
  obtain ⟨hpresent, -⟩ := hconvertible ⟨none, false, ⟨1, some (.alpha 1)⟩⟩
    ⟨none, false, ⟨1, some (.beta 1)⟩⟩ ⟨[], [⟨none, false, ⟨1, none⟩⟩], rfl⟩ ⟨rfl, rfl⟩
  exact absurd (hpresent _ List.mem_cons_self _ rfl) (by decide)

end Examples

end Enum

end VersionedMacros

end StackableOperator
