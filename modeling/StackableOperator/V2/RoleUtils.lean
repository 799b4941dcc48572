import Mathlib
import StackableOperator.Kube.Object
import StackableOperator.V2.Builder.Pod.Container
import StackableOperator.V2.JvmArgumentOverrides

/-!
# Roles and role groups with generic merging

`withValidatedConfig` merges everything that a role and a role group have in common: the
configuration is merged over the defaults and validated, the overrides of the role group are
merged over the ones of the role. In particular JVM arguments are merged generically;
`jvmArguments_eq` says that the arguments that come out are the same as with
`Role.getMergedJvmArgumentOverrides`.
-/

namespace StackableOperator

namespace V2

/-- What roles and role groups have in common. -/
structure CommonConfiguration (Config CommonConfig ConfigOverrides PodTemplateSpec : Type) where
  config : Config
  configOverrides : ConfigOverrides
  envOverrides : BTreeMap EnvVarName String
  cliOverrides : BTreeMap String String
  podOverrides : PodTemplateSpec
  productSpecificCommonConfig : CommonConfig

structure RoleGroup (Config CommonConfig ConfigOverrides PodTemplateSpec : Type) where
  config : CommonConfiguration Config CommonConfig ConfigOverrides PodTemplateSpec
  replicas : Option UInt16

structure Role (Config CommonConfig ConfigOverrides PodTemplateSpec : Type) where
  config : CommonConfiguration Config CommonConfig ConfigOverrides PodTemplateSpec
  /-- The role groups by their name. -/
  roleGroups : HashMap String (RoleGroup Config CommonConfig ConfigOverrides PodTemplateSpec)

/-- The product-specific configuration of Java products. -/
structure JavaCommonConfig (RegexSet : Type) where
  jvmArgumentOverrides : JvmArgumentOverrides RegexSet

instance {RegexSet : Type} : Merge (JavaCommonConfig RegexSet) :=
  ⟨fun self defaults => ⟨Merge.merge self.jvmArgumentOverrides defaults.jvmArgumentOverrides⟩⟩

section Merged

variable {Config CommonConfig ConfigOverrides PodTemplateSpec C : Type}

/-- Merge the layers and validate the result with the validation of the product's type. -/
def RoleGroup.validateConfig [Merge Config] (validate : Config → Except ValidationError C)
    (self : RoleGroup Config CommonConfig ConfigOverrides PodTemplateSpec)
    (role : Role Config CommonConfig ConfigOverrides PodTemplateSpec)
    (defaultConfig : Config) : Except ValidationError C :=
  validate (mergeConfig self.config.config role.config.config defaultConfig)

def mergedConfigOverrides [Merge ConfigOverrides]
    (roleConfigOverrides roleGroupConfigOverrides : ConfigOverrides) : ConfigOverrides :=
  Merge.merge roleGroupConfigOverrides roleConfigOverrides

def mergedEnvOverrides (roleEnvOverrides roleGroupEnvOverrides : BTreeMap EnvVarName String) :
    BTreeMap EnvVarName String :=
  IterMap.extend (M := BTreeMap EnvVarName) roleEnvOverrides roleGroupEnvOverrides

def mergedCliOverrides (roleCliOverrides roleGroupCliOverrides : BTreeMap String String) :
    BTreeMap String String :=
  IterMap.extend (M := BTreeMap String) roleCliOverrides roleGroupCliOverrides

def mergedPodOverrides [DeepMerge PodTemplateSpec]
    (rolePodOverrides roleGroupPodOverrides : PodTemplateSpec) : PodTemplateSpec :=
  DeepMerge.mergeFrom rolePodOverrides roleGroupPodOverrides

def mergedProductSpecificCommonConfig {T : Type} [Merge T] (roleConfig roleGroupConfig : T) : T :=
  Merge.merge roleGroupConfig roleConfig

/-- Merge and validate the role group with its role and the default configuration. -/
def withValidatedConfig [Merge Config] [Merge CommonConfig] [Merge ConfigOverrides]
    [DeepMerge PodTemplateSpec] (validate : Config → Except ValidationError C)
    (roleGroup : RoleGroup Config CommonConfig ConfigOverrides PodTemplateSpec)
    (role : Role Config CommonConfig ConfigOverrides PodTemplateSpec)
    (defaultConfig : Config) :
    Except ValidationError (RoleGroup C CommonConfig ConfigOverrides PodTemplateSpec) := do
  let validatedConfig ← roleGroup.validateConfig validate role defaultConfig
  return {
    config := {
      config := validatedConfig
      configOverrides :=
        mergedConfigOverrides role.config.configOverrides roleGroup.config.configOverrides
      envOverrides := mergedEnvOverrides role.config.envOverrides roleGroup.config.envOverrides
      cliOverrides := mergedCliOverrides role.config.cliOverrides roleGroup.config.cliOverrides
      podOverrides := mergedPodOverrides role.config.podOverrides roleGroup.config.podOverrides
      productSpecificCommonConfig :=
        mergedProductSpecificCommonConfig role.config.productSpecificCommonConfig
          roleGroup.config.productSpecificCommonConfig }
    replicas := roleGroup.replicas }

/-- The product-specific configuration of the result is the merged one. -/
theorem productSpecificCommonConfig_of_withValidatedConfig [Merge Config] [Merge CommonConfig]
    [Merge ConfigOverrides] [DeepMerge PodTemplateSpec]
    {validate : Config → Except ValidationError C}
    {roleGroup : RoleGroup Config CommonConfig ConfigOverrides PodTemplateSpec}
    {role : Role Config CommonConfig ConfigOverrides PodTemplateSpec} {defaultConfig : Config}
    {validated : RoleGroup C CommonConfig ConfigOverrides PodTemplateSpec}
    (h : withValidatedConfig validate roleGroup role defaultConfig = .ok validated) :
    validated.config.productSpecificCommonConfig =
      Merge.merge roleGroup.config.productSpecificCommonConfig
        role.config.productSpecificCommonConfig := by
  obtain ⟨validatedConfig, -, h⟩ := bind_eq_ok.mp h
  obtain rfl := Except.ok.inj h
  rfl

end Merged

/-! ### The two ways of merging JVM arguments agree -/

/-- **Eager and lazy merging agree**: for overrides that the user wrote at role and role group
level and that could be read, the arguments merged by the role are those of the validated role
group, applied to the generated arguments. -/
theorem jvmArguments_eq {lib : RegexLibrary} (hlib : lib.IsDocumented)
    {roleUser groupUser : UserJvmArgumentOverrides}
    -- the role and the role group, read by the first version
    {Config₁ : Type} {role₁ : StackableOperator.Role Config₁ StackableOperator.JavaCommonConfig}
    {roleGroup : String}
    {group₁ : StackableOperator.RoleGroup Config₁ StackableOperator.JavaCommonConfig}
    (hgroup₁ : IterMap.get? (M := HashMap String) role₁.roleGroups roleGroup = some group₁)
    (hroleUser₁ : role₁.config.productSpecificCommonConfig.jvmArgumentOverrides =
      .deserialize roleUser)
    (hgroupUser₁ : group₁.config.productSpecificCommonConfig.jvmArgumentOverrides =
      .deserialize groupUser)
    -- the role and the role group, read by the second version
    {Config ConfigOverrides PodTemplateSpec C : Type} [Merge Config] [Merge ConfigOverrides]
    [DeepMerge PodTemplateSpec]
    {role : Role Config (JavaCommonConfig lib.RegexSet) ConfigOverrides PodTemplateSpec}
    {group : RoleGroup Config (JavaCommonConfig lib.RegexSet) ConfigOverrides PodTemplateSpec}
    (hroleUser : JvmArgumentOverrides.deserialize lib roleUser =
      .ok role.config.productSpecificCommonConfig.jvmArgumentOverrides)
    (hgroupUser : JvmArgumentOverrides.deserialize lib groupUser =
      .ok group.config.productSpecificCommonConfig.jvmArgumentOverrides)
    {validate : Config → Except ValidationError C} {defaultConfig : Config}
    {validated : RoleGroup C (JavaCommonConfig lib.RegexSet) ConfigOverrides PodTemplateSpec}
    (hvalidated : withValidatedConfig validate group role defaultConfig = .ok validated)
    (operatorGenerated : List String) :
    ∃ merged,
      role₁.getMergedJvmArgumentOverrides lib roleGroup
          (.newWithOnlyAdditions operatorGenerated) = .ok merged ∧
      merged.effectiveJvmConfigAfterMerging =
        some (validated.config.productSpecificCommonConfig.jvmArgumentOverrides.applyTo
          operatorGenerated) := by
  obtain ⟨roleMatch, hroleMatch, hroleApply⟩ :=
    JvmArgumentOverrides.exists_applyTo_of_deserialize hlib hroleUser
  obtain ⟨groupMatch, hgroupMatch, hgroupApply⟩ :=
    JvmArgumentOverrides.exists_applyTo_of_deserialize hlib hgroupUser
  refine ⟨_, role₁.getMergedJvmArgumentOverrides_eq hgroup₁ hroleUser₁ hgroupUser₁ hroleMatch
    hgroupMatch _, ?_⟩
  have hmerged : validated.config.productSpecificCommonConfig.jvmArgumentOverrides =
      group.config.productSpecificCommonConfig.jvmArgumentOverrides.merge
        role.config.productSpecificCommonConfig.jvmArgumentOverrides := by
    rw [productSpecificCommonConfig_of_withValidatedConfig hvalidated]
    rfl
  rw [hmerged, JvmArgumentOverrides.applyTo_merge, hroleApply, hgroupApply]
  rfl

/-! An example with empty configurations: the role removes one generated argument by its name
and adds another one, the role group removes an argument by a regex. -/

instance : Merge Unit := ⟨fun self _ => self⟩

instance : DeepMerge Unit := ⟨fun self _ => self⟩

namespace Example

def roleOverrides : UserJvmArgumentOverrides := ⟨some ["-Xms2m"], some ["-XX:+UseG1GC"], none⟩

def roleGroupOverrides : UserJvmArgumentOverrides := ⟨none, none, some ["^-Xmx1m"]⟩

def roleGroup₁ : StackableOperator.RoleGroup Unit StackableOperator.JavaCommonConfig :=
  ⟨⟨(), ⟨.deserialize roleGroupOverrides⟩⟩, none⟩

def role₁ : StackableOperator.Role Unit StackableOperator.JavaCommonConfig :=
  ⟨⟨(), ⟨.deserialize roleOverrides⟩⟩,
    IterMap.insert (M := HashMap String) IterMap.empty "default" roleGroup₁⟩

def roleGroup : RoleGroup Unit (JavaCommonConfig (List String)) Unit Unit :=
  ⟨⟨(), (), ∅, ∅, (), ⟨⟨[], ∅, ["^-Xmx1m$"], []⟩⟩⟩, none⟩

def role : Role Unit (JavaCommonConfig (List String)) Unit Unit :=
  ⟨⟨(), (), ∅, ∅, (), ⟨⟨["-Xms2m"], {"-XX:+UseG1GC"}, [], []⟩⟩⟩,
    IterMap.insert (M := HashMap String) IterMap.empty "default" roleGroup⟩

end Example

/-- Both ways of merging leave only the argument that the role adds. -/
theorem jvmArguments_eq_example :
    ∃ merged,
      Example.role₁.getMergedJvmArgumentOverrides .literals "default"
        (.newWithOnlyAdditions ["-Xmx1m", "-XX:+UseG1GC", "-Xmx1m"]) = .ok merged ∧
      merged.effectiveJvmConfigAfterMerging = some ["-Xms2m"] := by
  have hrole : JvmArgumentOverrides.deserialize .literals Example.roleOverrides =
      .ok Example.role.config.productSpecificCommonConfig.jvmArgumentOverrides := rfl
  have hroleGroup : JvmArgumentOverrides.deserialize .literals Example.roleGroupOverrides =
      .ok Example.roleGroup.config.productSpecificCommonConfig.jvmArgumentOverrides := rfl
  have hvalidated : withValidatedConfig (C := Unit) .ok Example.roleGroup Example.role () =
      .ok _ := rfl
  exact jvmArguments_eq RegexLibrary.isDocumented_literals rfl rfl rfl hrole hroleGroup hvalidated
    ["-Xmx1m", "-XX:+UseG1GC", "-Xmx1m"]

end V2

end StackableOperator
