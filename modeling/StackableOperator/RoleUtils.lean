import Mathlib
import StackableOperator.Config.Fragment
import StackableOperator.Config.Merge
import StackableOperator.ForMathlib.Traverse
import StackableOperator.Regex

/-!
# Roles and role groups

A role carries a configuration and a map of role groups, each with a configuration of its own;
the operator adds a default configuration below both. `RoleGroup.validateConfig` merges the
three layers and validates the result. `RoleGroup.validateConfig_mostSpecific` says what the
merged configuration holds at every place: the value of the most specific layer that sets it.

JVM arguments are merged in another way. `JvmArgumentOverrides.tryMerge` removes arguments of
the layer below, by name and by regex, and appends its own; `Role.getMergedJvmArgumentOverrides`
does this for the role and then for the role group. Read abstractly, each layer is an
`ArgumentEdit`, and `getMergedJvmArgumentOverrides_eq` says that the result is the two edits
applied one after the other.
-/

namespace StackableOperator

/-! ### Edits of argument lists -/

/-- What one layer does to the arguments below it: keep some of them and append others. -/
structure ArgumentEdit where
  keep : String → Bool
  add : List String

/-- The arguments that are kept, in their order, followed by the added ones. -/
def ArgumentEdit.apply (edit : ArgumentEdit) (args : List String) : List String :=
  args.filter edit.keep ++ edit.add

/-! ### JVM argument overrides -/

/-- The errors of merging roles; `E` is the error of the regex library. -/
inductive RoleUtils.Error (E : Type) : Type
  | missingRoleGroup (roleGroup : String)
  | invalidRemoveRegex (source : E) (regex : String)

/-- JVM arguments to be added, to be removed by exact match, and to be removed by a regex. -/
structure JvmArgumentOverrides where
  add : List String
  remove : Finset String
  removeRegex : List String
  deriving DecidableEq

/-- Overrides as the user writes them, where each field can be left out. -/
structure UserJvmArgumentOverrides where
  add : Option (List String)
  remove : Option (List String)
  removeRegex : Option (List String)

namespace JvmArgumentOverrides

/-- Fields that are left out are empty. -/
def deserialize (user : UserJvmArgumentOverrides) : JvmArgumentOverrides :=
  ⟨user.add.getD [], (user.remove.getD []).toFinset, user.removeRegex.getD []⟩

variable (lib : RegexLibrary)

def newWithOnlyAdditions (add : List String) : JvmArgumentOverrides := ⟨add, ∅, []⟩

/-- The arguments of merged overrides. Calling it with removals left is a panic. -/
def effectiveJvmConfigAfterMerging (self : JvmArgumentOverrides) : Option (List String) :=
  if self.remove = ∅ ∧ self.removeRegex = [] then some self.add else none

/-- Compile one of the regexes that the user gave. -/
def compile (regex : String) : Except (RoleUtils.Error lib.Error) lib.Regex :=
  match lib.new (withAnchors regex) with
  | .ok r => .ok r
  | .error source => .error (.invalidRemoveRegex source (withAnchors regex))

/-- Merge over the arguments of the defaults; fails on an invalid regex. -/
def tryMerge (self defaults : JvmArgumentOverrides) :
    Except (RoleUtils.Error lib.Error) JvmArgumentOverrides := do
  let regexes ← self.removeRegex.mapM (compile lib)
  let newAdd := ((defaults.add.filter fun arg => arg ∉ self.remove).filter fun arg =>
    !regexes.any (lib.isMatch · arg)) ++ self.add
  return ⟨newAdd, ∅, []⟩

/-- The overrides as an edit, given what their regexes match. -/
def edit (self : JvmArgumentOverrides) (isMatch : String → Bool) : ArgumentEdit where
  keep arg := !isMatch arg && decide (arg ∉ self.remove)
  add := self.add

/-- The regexes compile, and `isMatch` says which arguments one of them matches. -/
def IsMatcher (regexes : List String) (isMatch : String → Bool) : Prop :=
  ∃ compiled, regexes.mapM (compile lib) = .ok compiled ∧
    ∀ arg, compiled.any (lib.isMatch · arg) = isMatch arg

variable {lib}

theorem compile_eq_ok {regex : String} {r : lib.Regex} :
    compile lib regex = .ok r ↔ lib.new (withAnchors regex) = .ok r := by
  unfold compile
  cases lib.new (withAnchors regex) <;> simp

/-- A set of all the regexes matches what one of them matches. -/
theorem isMatcher_of_newSet (hlib : lib.IsDocumented) {regexes : List String}
    {set : lib.RegexSet} (hset : lib.newSet (regexes.map withAnchors) = .ok set) :
    IsMatcher lib regexes (lib.isMatchSet set) := by
  have hok : ∀ regex ∈ regexes, ∃ r, compile lib regex = .ok r := by
    intro regex hregex
    obtain ⟨r, hr⟩ := hlib.exists_new hset _ (List.mem_map_of_mem hregex)
    exact ⟨r, compile_eq_ok.mpr hr⟩
  obtain ⟨compiled, hcompiled, hany⟩ := RegexLibrary.exists_mapM_eq_ok hok
  refine ⟨compiled, hcompiled, fun arg => ?_⟩
  rw [Bool.eq_iff_iff, hany, hlib.isMatchSet_iff hset]
  simp [compile_eq_ok]

/-- The default set matches what an empty list of regexes matches. -/
theorem isMatcher_default (hlib : lib.IsDocumented) :
    IsMatcher lib [] (lib.isMatchSet lib.defaultSet) :=
  ⟨[], rfl, fun arg => (hlib.isMatchSet_default arg).symm⟩

/-- Merging applies the edit to the arguments of the defaults and leaves no removals. -/
theorem tryMerge_eq_ok {self : JvmArgumentOverrides} {isMatch : String → Bool}
    (h : IsMatcher lib self.removeRegex isMatch) (defaults : JvmArgumentOverrides) :
    self.tryMerge lib defaults =
      .ok (newWithOnlyAdditions ((self.edit isMatch).apply defaults.add)) := by
  obtain ⟨compiled, hcompiled, hany⟩ := h
  refine bind_eq_ok.mpr ⟨compiled, hcompiled, ?_⟩
  simp only [hany, List.filter_filter]
  rfl

end JvmArgumentOverrides

/-- The product-specific configuration of Java products. -/
structure JavaCommonConfig where
  jvmArgumentOverrides : JvmArgumentOverrides

/-! ### Roles -/

/-- What roles and role groups have in common. The overrides of config files, environment
variables, command line and pods are not read here. -/
structure CommonConfiguration (Config CommonConfig : Type) where
  config : Config
  productSpecificCommonConfig : CommonConfig

structure RoleGroup (Config CommonConfig : Type) where
  config : CommonConfiguration Config CommonConfig
  replicas : Option UInt16

structure Role (Config CommonConfig : Type) where
  config : CommonConfiguration Config CommonConfig
  /-- The role groups by their name. -/
  roleGroups : HashMap String (RoleGroup Config CommonConfig)

/-- Merge the role over the defaults, and the role group over the result. -/
def mergeConfig {Config : Type} [Merge Config] (roleGroup role default : Config) : Config :=
  let roleConfig := Merge.merge role default
  Merge.merge roleGroup roleConfig

/-- Merge the layers and validate the result with the validation of the product's type. -/
def RoleGroup.validateConfig {Config CommonConfig C : Type} [Merge Config]
    (validate : Config → Except ValidationError C) (self : RoleGroup Config CommonConfig)
    (role : Role Config CommonConfig) (defaultConfig : Config) : Except ValidationError C :=
  validate (mergeConfig self.config.config role.config.config defaultConfig)

/-- **What a role group configures**: the configuration that is validated holds, at every
place, the value of the most specific of the three layers that sets it and is not cut off by
another enum variant; where no layer cuts off another, that is the first layer that sets the
place at all. -/
theorem RoleGroup.validateConfig_mostSpecific {t : MergeTy} {CommonConfig : Type}
    (self : RoleGroup t.Value CommonConfig) (role : Role t.Value CommonConfig)
    (defaultConfig : t.Value) :
    ∃ merged : t.Value,
      (∀ (C : Type) (validate : t.Value → Except ValidationError C),
        self.validateConfig validate role defaultConfig = validate merged) ∧
      (∀ p : t.Path, p.observe merged =
        p.mostSpecific [self.config.config, role.config.config, defaultConfig]) ∧
      (∀ p : t.Path,
        (∀ x ∈ [self.config.config, role.config.config, defaultConfig],
          p.cutsOff x = false) →
        p.observe merged =
          [self.config.config, role.config.config, defaultConfig].findSome? p.observe) := by
  have hobserve : ∀ p : t.Path,
      p.observe (mergeConfig self.config.config role.config.config defaultConfig) =
        p.mostSpecific [self.config.config, role.config.config, defaultConfig] := fun p =>
    MergeTy.observe_mergeLayers p [self.config.config, role.config.config] defaultConfig
  exact ⟨mergeConfig self.config.config role.config.config defaultConfig,
    fun C validate => rfl, hobserve, fun p hcut =>
      (hobserve p).trans (p.mostSpecific_eq_findSome? hcut)⟩

/-! ### JVM arguments of a role group -/

namespace Role

variable {Config : Type} (lib : RegexLibrary)

/-- Take the arguments that the operator generated, apply the overrides of the role, and then
the ones of the role group. -/
def getMergedJvmArgumentOverrides (self : Role Config JavaCommonConfig) (roleGroup : String)
    (operatorGenerated : JvmArgumentOverrides) :
    Except (RoleUtils.Error lib.Error) JvmArgumentOverrides :=
  let fromRole := self.config.productSpecificCommonConfig.jvmArgumentOverrides
  match IterMap.get? (M := HashMap String) self.roleGroups roleGroup with
  | none => .error (.missingRoleGroup roleGroup)
  | some group => do
    let fromRoleGroup := group.config.productSpecificCommonConfig.jvmArgumentOverrides
    let fromRole ← fromRole.tryMerge lib operatorGenerated
    fromRoleGroup.tryMerge lib fromRole

variable {lib}

/-- The merged arguments are the edit of the role and then the one of the role group, applied
to the generated arguments. -/
theorem getMergedJvmArgumentOverrides_eq (self : Role Config JavaCommonConfig)
    {roleGroup : String} {group : RoleGroup Config JavaCommonConfig}
    {fromRole fromRoleGroup : JvmArgumentOverrides} {roleMatch groupMatch : String → Bool}
    (hgroup : IterMap.get? (M := HashMap String) self.roleGroups roleGroup = some group)
    (hrole : self.config.productSpecificCommonConfig.jvmArgumentOverrides = fromRole)
    (hroleGroup : group.config.productSpecificCommonConfig.jvmArgumentOverrides = fromRoleGroup)
    (hroleMatch : JvmArgumentOverrides.IsMatcher lib fromRole.removeRegex roleMatch)
    (hgroupMatch : JvmArgumentOverrides.IsMatcher lib fromRoleGroup.removeRegex groupMatch)
    (operatorGenerated : JvmArgumentOverrides) :
    self.getMergedJvmArgumentOverrides lib roleGroup operatorGenerated =
      .ok (.newWithOnlyAdditions ((fromRoleGroup.edit groupMatch).apply
        ((fromRole.edit roleMatch).apply operatorGenerated.add))) := by
  unfold getMergedJvmArgumentOverrides
  rw [hgroup, hrole]
  dsimp only
  rw [hroleGroup]
  exact bind_eq_ok.mpr ⟨_, JvmArgumentOverrides.tryMerge_eq_ok hroleMatch operatorGenerated,
    JvmArgumentOverrides.tryMerge_eq_ok hgroupMatch _⟩

end Role

/-! ### Names of role groups -/

/-- A reference to a named role group of a cluster object, of which only the name matters here. -/
structure RoleGroupRef where
  cluster : String
  role : String
  roleGroup : String

namespace RoleGroupRef

def objectName (self : RoleGroupRef) : String :=
  self.cluster ++ "-" ++ self.role ++ "-" ++ self.roleGroup

def rolegroupHeadlessServiceName (self : RoleGroupRef) : String := self.objectName ++ "-headless"

def rolegroupMetricsServiceName (self : RoleGroupRef) : String := self.objectName ++ "-metrics"

end RoleGroupRef

end StackableOperator
