import Mathlib
import StackableOperator.Config.Fragment
import StackableOperator.ProductLogging.Framework
import StackableOperator.RoleUtils
import StackableOperator.V2.Types.Kubernetes

/-!
# The logging configuration of a product

Users configure the logging of each container of a product, and may do so for a role and for a role
group. A container is logged with a custom configuration or with an automatic one that sets levels.
The layers are merged over `defaultLogging`, and the result is validated.

A layer that decides otherwise than the one above it hides all layers below, so that only the
leading layers with the same decision count. `validate_iff` says when the merged configuration is
valid, and `effective_of_validate` what it then holds: every level is the one of the first leading
layer that sets it.
-/

namespace StackableOperator

/-! ### The model of the source -/

structure LoggerConfigFragment where
  level : Option LogLevel

structure AppenderConfigFragment where
  level : Option LogLevel

structure ConfigMapLogConfigFragment where
  configMap : Option String

structure CustomContainerLogConfigFragment where
  custom : ConfigMapLogConfigFragment

structure AutomaticContainerLogConfigFragment where
  loggers : BTreeMap String LoggerConfigFragment
  console : Option AppenderConfigFragment
  file : Option AppenderConfigFragment

inductive ContainerLogConfigChoiceFragment : Type
  | custom (fragment : CustomContainerLogConfigFragment)
  | automatic (fragment : AutomaticContainerLogConfigFragment)

structure ContainerLogConfigFragment where
  choice : Option ContainerLogConfigChoiceFragment

structure LoggingFragment (T : Type) [LinearOrder T] where
  enableVectorAgent : Option Bool
  containers : BTreeMap T ContainerLogConfigFragment

/-- The logging configuration of all containers. -/
structure Logging (T : Type) [LinearOrder T] where
  enableVectorAgent : Bool
  containers : BTreeMap T ContainerLogConfig

/-! #### Merging -/

def LoggerConfigFragment.merge (self defaults : LoggerConfigFragment) : LoggerConfigFragment :=
  ⟨self.level.or defaults.level⟩

def AppenderConfigFragment.merge (self defaults : AppenderConfigFragment) :
    AppenderConfigFragment :=
  ⟨self.level.or defaults.level⟩

def ConfigMapLogConfigFragment.merge (self defaults : ConfigMapLogConfigFragment) :
    ConfigMapLogConfigFragment :=
  ⟨self.configMap.or defaults.configMap⟩

def CustomContainerLogConfigFragment.merge (self defaults : CustomContainerLogConfigFragment) :
    CustomContainerLogConfigFragment :=
  ⟨self.custom.merge defaults.custom⟩

def AutomaticContainerLogConfigFragment.merge
    (self defaults : AutomaticContainerLogConfigFragment) :
    AutomaticContainerLogConfigFragment where
  loggers := IterMap.mergeWith (M := BTreeMap String) LoggerConfigFragment.merge self.loggers
    defaults.loggers
  console :=
    match self.console with
    | some console =>
      match defaults.console with
      | some defaultsConsole => some (console.merge defaultsConsole)
      | none => some console
    | none => defaults.console
  file :=
    match self.file with
    | some file =>
      match defaults.file with
      | some defaultsFile => some (file.merge defaultsFile)
      | none => some file
    | none => defaults.file

/-- Merge optional choices. A choice that is set otherwise discards the defaults. -/
def ContainerLogConfigChoiceFragment.merge :
    Option ContainerLogConfigChoiceFragment → Option ContainerLogConfigChoiceFragment →
      Option ContainerLogConfigChoiceFragment
  | some (.custom fragment), some (.custom defaults) => some (.custom (fragment.merge defaults))
  | some (.automatic fragment), some (.automatic defaults) =>
    some (.automatic (fragment.merge defaults))
  | some choice, _ => some choice
  | none, defaults => defaults

def ContainerLogConfigFragment.merge (self defaults : ContainerLogConfigFragment) :
    ContainerLogConfigFragment :=
  ⟨ContainerLogConfigChoiceFragment.merge self.choice defaults.choice⟩

section

variable {T : Type} [LinearOrder T]

def LoggingFragment.merge (self defaults : LoggingFragment T) : LoggingFragment T where
  enableVectorAgent := self.enableVectorAgent.or defaults.enableVectorAgent
  containers := IterMap.mergeWith (M := BTreeMap T) ContainerLogConfigFragment.merge
    self.containers defaults.containers

instance : Merge (LoggingFragment T) := ⟨LoggingFragment.merge⟩

end

/-! #### Validation -/

/-- The value of a leaf that is required. -/
def fromRequired {α : Type} (fragment : Option α) (validator : Validator) :
    Except ValidationError α :=
  match fragment with
  | some value => .ok value
  | none => .error validator.errorRequired

def LoggerConfig.fromFragment (fragment : LoggerConfigFragment) (validator : Validator) :
    Except ValidationError LoggerConfig := do
  let level ← fromRequired fragment.level (validator.field "level")
  return ⟨level⟩

/-- Nothing is required of an appender. -/
def AppenderConfig.fromFragment (fragment : AppenderConfigFragment) : AppenderConfig :=
  ⟨fragment.level⟩

/-- The name of the ConfigMap. -/
def CustomContainerLogConfig.fromFragment (fragment : CustomContainerLogConfigFragment)
    (validator : Validator) : Except ValidationError String :=
  fromRequired fragment.custom.configMap ((validator.field "custom").field "config_map")

def AutomaticContainerLogConfig.fromFragment (fragment : AutomaticContainerLogConfigFragment)
    (validator : Validator) : Except ValidationError AutomaticContainerLogConfig := do
  let loggers ← IterMap.traverse (M := BTreeMap String)
    (fun name logger => LoggerConfig.fromFragment logger ((validator.field "loggers").field name))
    fragment.loggers
  return ⟨loggers, fragment.console.map AppenderConfig.fromFragment,
    fragment.file.map AppenderConfig.fromFragment⟩

def ContainerLogConfigChoice.fromFragment (fragment : ContainerLogConfigChoiceFragment)
    (validator : Validator) : Except ValidationError ContainerLogConfigChoice :=
  match fragment with
  | .custom fragment =>
    (CustomContainerLogConfig.fromFragment fragment validator).map .custom
  | .automatic fragment =>
    (AutomaticContainerLogConfig.fromFragment fragment validator).map .automatic

def ContainerLogConfig.fromFragment (fragment : ContainerLogConfigFragment)
    (validator : Validator) : Except ValidationError ContainerLogConfig :=
  match fragment.choice with
  | some choice =>
    (ContainerLogConfigChoice.fromFragment choice (validator.field "choice")).map
      fun choice => ⟨some choice⟩
  | none => .ok ⟨none⟩

section

variable {T : Type} [LinearOrder T] (display : T → String)

def Logging.fromFragment (fragment : LoggingFragment T) (validator : Validator) :
    Except ValidationError (Logging T) := do
  let enableVectorAgent ← fromRequired fragment.enableVectorAgent
    (validator.field "enable_vector_agent")
  let containers ← IterMap.traverse (M := BTreeMap T)
    (fun container config => ContainerLogConfig.fromFragment config
      ((validator.field "containers").field (display container)))
    fragment.containers
  return ⟨enableVectorAgent, containers⟩

def Logging.validate (fragment : LoggingFragment T) : Except ValidationError (Logging T) :=
  Logging.fromFragment display fragment Validator.root

/-! #### Defaults -/

def defaultContainerLogConfig : ContainerLogConfigFragment where
  choice := some (.automatic
    { loggers := IterMap.collect (M := BTreeMap String) [("ROOT", ⟨some .info⟩)]
      console := some ⟨some .info⟩
      file := some ⟨some .info⟩ })

/-- The default configuration of the containers. -/
def defaultLogging (containers : List T) : LoggingFragment T where
  enableVectorAgent := some false
  containers := IterMap.collect (M := BTreeMap T)
    (containers.map fun container => (container, defaultContainerLogConfig))

end

/-! #### Validated choices -/

namespace V2

inductive ValidatedContainerLogConfigChoice : Type
  | automatic (config : AutomaticContainerLogConfig)
  | custom (configMap : ConfigMapName)

inductive LoggingError : Type
  | getContainerLogConfiguration (container : String)
  | parseContainerName (source : AttributedStringError)

def validateLoggingConfigurationForContainer {T : Type} [LinearOrder T] (display : T → String)
    (logging : Logging T) (container : T) :
    Except LoggingError ValidatedContainerLogConfigChoice :=
  match (IterMap.get? (M := BTreeMap T) logging.containers container).bind
    ContainerLogConfig.choice with
  | none => .error (.getContainerLogConfiguration (display container))
  | some (.automatic config) => .ok (.automatic config)
  | some (.custom configMap) =>
    match AttributedString.fromStr [.isRfc1123DnsSubdomainName] configMap with
    | .ok configMap => .ok (.custom configMap)
    | .error source => .error (.parseContainerName source)

end V2

/-! ### Leading layers -/

def AutomaticContainerLogConfigFragment.loggerLevel (fragment : AutomaticContainerLogConfigFragment)
    (name : String) : Option LogLevel :=
  (IterMap.get? (M := BTreeMap String) fragment.loggers name).bind LoggerConfigFragment.level

def CustomContainerLogConfigFragment.configMap (fragment : CustomContainerLogConfigFragment) :
    Option String :=
  fragment.custom.configMap

namespace ContainerLogConfigChoiceFragment

/-- The leading choices of a custom configuration. -/
def customs : List ContainerLogConfigChoiceFragment → List CustomContainerLogConfigFragment
  | .custom fragment :: choices => fragment :: customs choices
  | _ => []

/-- The leading choices of an automatic configuration. -/
def automatics : List ContainerLogConfigChoiceFragment → List AutomaticContainerLogConfigFragment
  | .automatic fragment :: choices => fragment :: automatics choices
  | _ => []

/-- A required leaf that no leading choice sets, with its path. -/
inductive Unset (choices : List ContainerLogConfigChoiceFragment) : List String → Prop
  | custom : customs choices ≠ [] →
      (customs choices).findSome? CustomContainerLogConfigFragment.configMap = none →
      Unset choices ["custom", "config_map"]
  | automatic {fragment : AutomaticContainerLogConfigFragment} {name : String} :
      fragment ∈ automatics choices →
      (IterMap.get? (M := BTreeMap String) fragment.loggers name).isSome = true →
      ((automatics choices).findSome? fun layer => layer.loggerLevel name) = none →
      Unset choices ["loggers", name, "level"]

end ContainerLogConfigChoiceFragment

/-- The levels are the ones of the first layer that sets them. -/
structure AutomaticContainerLogConfig.Reflects (config : AutomaticContainerLogConfig)
    (layers : List AutomaticContainerLogConfigFragment) : Prop where
  loggers : ∀ name,
    (IterMap.get? (M := BTreeMap String) config.loggers name).map LoggerConfig.level =
      layers.findSome? fun layer => layer.loggerLevel name
  console : config.console.bind AppenderConfig.level =
    layers.findSome? fun layer => layer.console.bind AppenderConfigFragment.level
  file : config.file.bind AppenderConfig.level =
    layers.findSome? fun layer => layer.file.bind AppenderConfigFragment.level

open ContainerLogConfigChoiceFragment in
/-- What the choices of all layers amount to. -/
def ContainerLogConfigChoice.Settles (choices : List ContainerLogConfigChoiceFragment) :
    ContainerLogConfigChoice → Prop
  | .custom configMap =>
    (customs choices).findSome? CustomContainerLogConfigFragment.configMap = some configMap
  | .automatic config => automatics choices ≠ [] ∧ config.Reflects (automatics choices)

section

variable {T : Type} [LinearOrder T]

def LoggingFragment.choiceAt (container : T) (layer : LoggingFragment T) :
    Option ContainerLogConfigChoiceFragment :=
  (IterMap.get? (M := BTreeMap T) layer.containers container).bind ContainerLogConfigFragment.choice

end

/-! ### Merged choices -/

theorem findSome?_cons_or {α β : Type} (f : α → Option β) (a : α) (l : List α) :
    (a :: l).findSome? f = (f a).or (l.findSome? f) := by
  rw [List.findSome?_cons]
  cases f a <;> rfl

/-- What the automatic configuration of several layers holds. -/
structure AutomaticContainerLogConfigFragment.Merges
    (fragment : AutomaticContainerLogConfigFragment)
    (layers : List AutomaticContainerLogConfigFragment) : Prop where
  loggers : ∀ name, fragment.loggerLevel name = layers.findSome? fun layer => layer.loggerLevel name
  names : ∀ name, (IterMap.get? (M := BTreeMap String) fragment.loggers name).isSome = true ↔
    ∃ layer ∈ layers, (IterMap.get? (M := BTreeMap String) layer.loggers name).isSome = true
  console : fragment.console.bind AppenderConfigFragment.level =
    layers.findSome? fun layer => layer.console.bind AppenderConfigFragment.level
  file : fragment.file.bind AppenderConfigFragment.level =
    layers.findSome? fun layer => layer.file.bind AppenderConfigFragment.level

namespace AutomaticContainerLogConfigFragment

variable {fragment defaults : AutomaticContainerLogConfigFragment}
  {layers : List AutomaticContainerLogConfigFragment}

theorem Merges.singleton (fragment : AutomaticContainerLogConfigFragment) :
    fragment.Merges [fragment] where
  loggers name := by rw [findSome?_cons_or, List.findSome?_nil, Option.or_none]
  names name := by simp
  console := by rw [findSome?_cons_or, List.findSome?_nil, Option.or_none]
  file := by rw [findSome?_cons_or, List.findSome?_nil, Option.or_none]

theorem get?_merge (fragment defaults : AutomaticContainerLogConfigFragment) (name : String) :
    IterMap.get? (M := BTreeMap String) (fragment.merge defaults).loggers name =
      (IterMap.get? (M := BTreeMap String) fragment.loggers name).merge LoggerConfigFragment.merge
        (IterMap.get? (M := BTreeMap String) defaults.loggers name) :=
  IterMap.get?_mergeWith _ _ _ _

theorem Merges.cons (h : defaults.Merges layers) (fragment : AutomaticContainerLogConfigFragment) :
    (fragment.merge defaults).Merges (fragment :: layers) where
  loggers name := by
    rw [findSome?_cons_or, ← h.loggers name, loggerLevel, loggerLevel, loggerLevel, get?_merge]
    cases IterMap.get? (M := BTreeMap String) fragment.loggers name <;>
      cases IterMap.get? (M := BTreeMap String) defaults.loggers name <;>
      simp [LoggerConfigFragment.merge]
  names name := by
    rw [List.exists_mem_cons_iff, ← h.names name, get?_merge]
    cases IterMap.get? (M := BTreeMap String) fragment.loggers name <;>
      cases IterMap.get? (M := BTreeMap String) defaults.loggers name <;> simp
  console := by
    rw [findSome?_cons_or, ← h.console, merge]
    cases fragment.console <;> cases defaults.console <;> simp [AppenderConfigFragment.merge]
  file := by
    rw [findSome?_cons_or, ← h.file, merge]
    cases fragment.file <;> cases defaults.file <;> simp [AppenderConfigFragment.merge]

end AutomaticContainerLogConfigFragment

namespace ContainerLogConfigChoiceFragment

/-- Merge the choices of all layers. -/
def mergeAll (choices : List ContainerLogConfigChoiceFragment) :
    Option ContainerLogConfigChoiceFragment :=
  choices.foldr (fun choice defaults => merge (some choice) defaults) none

theorem mergeAll_cons (choice : ContainerLogConfigChoiceFragment)
    (choices : List ContainerLogConfigChoiceFragment) :
    mergeAll (choice :: choices) = merge (some choice) (mergeAll choices) := rfl

theorem exists_mergeAll_automatic (fragment : AutomaticContainerLogConfigFragment)
    (choices : List ContainerLogConfigChoiceFragment) :
    ∃ merged, mergeAll (.automatic fragment :: choices) = some (.automatic merged) := by
  rw [mergeAll_cons]
  rcases mergeAll choices with _ | _ | defaults
  · exact ⟨fragment, rfl⟩
  · exact ⟨fragment, rfl⟩
  · exact ⟨fragment.merge defaults, rfl⟩

/-- A custom configuration takes its name from the leading custom ones. -/
theorem mergeAll_custom (fragment : CustomContainerLogConfigFragment)
    (choices : List ContainerLogConfigChoiceFragment) :
    ∃ merged, mergeAll (.custom fragment :: choices) = some (.custom merged) ∧
      merged.configMap =
        (customs (.custom fragment :: choices)).findSome?
          CustomContainerLogConfigFragment.configMap := by
  induction choices generalizing fragment with
  | nil => exact ⟨fragment, rfl, by simp [customs]⟩
  | cons choice choices ih =>
    cases choice with
    | custom next =>
      obtain ⟨merged, hmerged, hname⟩ := ih next
      refine ⟨fragment.merge merged, ?_, ?_⟩
      · rw [mergeAll_cons, hmerged]
        rfl
      · rw [customs, findSome?_cons_or, ← hname]
        rfl
    | automatic next =>
      obtain ⟨merged, hmerged⟩ := exists_mergeAll_automatic next choices
      refine ⟨fragment, ?_, by simp [customs]⟩
      rw [mergeAll_cons, hmerged]
      rfl

/-- An automatic configuration is merged from the leading automatic ones. -/
theorem mergeAll_automatic (fragment : AutomaticContainerLogConfigFragment)
    (choices : List ContainerLogConfigChoiceFragment) :
    ∃ merged, mergeAll (.automatic fragment :: choices) = some (.automatic merged) ∧
      merged.Merges (automatics (.automatic fragment :: choices)) := by
  induction choices generalizing fragment with
  | nil => exact ⟨fragment, rfl, .singleton fragment⟩
  | cons choice choices ih =>
    cases choice with
    | automatic next =>
      obtain ⟨merged, hmerged, hmerges⟩ := ih next
      refine ⟨fragment.merge merged, ?_, hmerges.cons fragment⟩
      rw [mergeAll_cons, hmerged]
      rfl
    | custom next =>
      obtain ⟨merged, hmerged, -⟩ := mergeAll_custom next choices
      refine ⟨fragment, ?_, .singleton fragment⟩
      rw [mergeAll_cons, hmerged]
      rfl

theorem exists_mergeAll {choices : List ContainerLogConfigChoiceFragment} (h : choices ≠ []) :
    ∃ merged, mergeAll choices = some merged := by
  obtain ⟨first | first, choices, rfl⟩ := List.exists_cons_of_ne_nil h
  · obtain ⟨merged, hmerged, -⟩ := mergeAll_custom first choices
    exact ⟨_, hmerged⟩
  · obtain ⟨merged, hmerged⟩ := exists_mergeAll_automatic first choices
    exact ⟨_, hmerged⟩

theorem ne_nil_of_unset {choices : List ContainerLogConfigChoiceFragment} {path : List String}
    (h : Unset choices path) : choices ≠ [] := by
  rintro rfl
  cases h with
  | custom hne _ => exact hne rfl
  | automatic hmem _ _ => cases hmem

end ContainerLogConfigChoiceFragment

section

variable {T : Type} [LinearOrder T]

open ContainerLogConfigChoiceFragment

theorem LoggingFragment.choiceAt_merge (container : T) (self defaults : LoggingFragment T) :
    (self.merge defaults).choiceAt container =
      ContainerLogConfigChoiceFragment.merge (self.choiceAt container)
        (defaults.choiceAt container) := by
  have hget := IterMap.get?_mergeWith (M := BTreeMap T) ContainerLogConfigFragment.merge
    self.containers defaults.containers container
  rw [choiceAt, choiceAt, choiceAt, LoggingFragment.merge, hget]
  cases IterMap.get? (M := BTreeMap T) self.containers container with
  | none =>
    rw [Option.merge_none_left]
    rfl
  | some config =>
    cases IterMap.get? (M := BTreeMap T) defaults.containers container with
    | none =>
      obtain ⟨_ | _ | _⟩ := config <;> rfl
    | some defaultsConfig => rfl

/-- The choice of the merged layers is the one that their choices are merged to. -/
theorem LoggingFragment.choiceAt_foldr (container : T) (layers : List (LoggingFragment T))
    (defaults : LoggingFragment T) :
    (layers.foldr LoggingFragment.merge defaults).choiceAt container =
      mergeAll ((layers ++ [defaults]).filterMap (choiceAt container)) := by
  induction layers with
  | nil =>
    rw [List.foldr_nil, List.nil_append, List.filterMap_cons]
    cases defaults.choiceAt container with
    | none => rfl
    | some choice => cases choice <;> rfl
  | cons layer layers ih =>
    rw [List.foldr_cons, choiceAt_merge, ih, List.cons_append, List.filterMap_cons]
    cases layer.choiceAt container <;> rfl

end

/-! ### Validated choices -/

/-- A required leaf is there, or the error is the one of its place. -/
theorem fromRequired_eq_ok_iff {α : Type} {fragment : Option α} {validator : Validator}
    {value : α} :
    fromRequired fragment validator = .ok value ↔ fragment = some value := by
  cases fragment <;> simp [fromRequired]

theorem fromRequired_eq_error_iff {α : Type} {fragment : Option α} {validator : Validator}
    {e : ValidationError} :
    fromRequired fragment validator = .error e ↔ fragment = none ∧ validator.errorRequired = e := by
  cases fragment <;> simp [fromRequired]

theorem LoggerConfig.fromFragment_eq_ok_iff {fragment : LoggerConfigFragment}
    {validator : Validator} {logger : LoggerConfig} :
    LoggerConfig.fromFragment fragment validator = .ok logger ↔
      fragment.level = some logger.level := by
  rw [fromFragment, bind_eq_ok]
  constructor
  · rintro ⟨level, hlevel, hlogger⟩
    obtain rfl := Except.ok.inj hlogger
    exact fromRequired_eq_ok_iff.mp hlevel
  · exact fun hlevel => ⟨logger.level, fromRequired_eq_ok_iff.mpr hlevel, rfl⟩

theorem LoggerConfig.fromFragment_eq_error_iff {fragment : LoggerConfigFragment}
    {validator : Validator} {e : ValidationError} :
    LoggerConfig.fromFragment fragment validator = .error e ↔
      fragment.level = none ∧ (validator.field "level").errorRequired = e := by
  rw [fromFragment, bind_eq_error, fromRequired_eq_error_iff]
  refine or_iff_left ?_
  rintro ⟨level, -, h⟩
  cases h

namespace ContainerLogConfigChoice

open ContainerLogConfigChoiceFragment

variable {choices : List ContainerLogConfigChoiceFragment}
  {fragment : AutomaticContainerLogConfigFragment} {validator : Validator}

/-- A validated automatic configuration has the levels of its fragment. -/
theorem reflects_of_fromFragment {layers : List AutomaticContainerLogConfigFragment}
    {config : AutomaticContainerLogConfig} (hmerges : fragment.Merges layers)
    (h : AutomaticContainerLogConfig.fromFragment fragment validator = .ok config) :
    config.Reflects layers ∧ ∀ name,
      (IterMap.get? (M := BTreeMap String) fragment.loggers name).isSome = true →
        (layers.findSome? fun layer => layer.loggerLevel name) ≠ none := by
  obtain ⟨loggers, hloggers, hconfig⟩ := bind_eq_ok.mp h
  obtain rfl := Except.ok.inj hconfig
  have hlevels : ∀ name,
      (IterMap.get? (M := BTreeMap String) loggers name).map LoggerConfig.level =
        fragment.loggerLevel name ∧
      ((IterMap.get? (M := BTreeMap String) fragment.loggers name).isSome = true →
        fragment.loggerLevel name ≠ none) := by
    intro name
    have hrel := IterMap.rel_of_traverse_eq_ok (M := BTreeMap String) hloggers name
    rw [AutomaticContainerLogConfigFragment.loggerLevel]
    generalize IterMap.get? (M := BTreeMap String) fragment.loggers name = logger at hrel
    generalize IterMap.get? (M := BTreeMap String) loggers name = value at hrel
    cases hrel with
    | none => exact ⟨rfl, fun h => by cases h⟩
    | some hlogger =>
      have hlevel := LoggerConfig.fromFragment_eq_ok_iff.mp hlogger
      exact ⟨hlevel.symm, fun _ hnone => by cases hlevel.symm.trans hnone⟩
  refine ⟨⟨fun name => (hlevels name).1.trans (hmerges.loggers name), ?_, ?_⟩, fun name hname => ?_⟩
  · rw [← hmerges.console]
    cases fragment.console <;> rfl
  · rw [← hmerges.file]
    cases fragment.file <;> rfl
  · rw [← hmerges.loggers name]
    exact (hlevels name).2 hname

/-- An automatic configuration is rejected because of a logger without level. -/
theorem exists_of_fromFragment_eq_error {e : ValidationError}
    (h : AutomaticContainerLogConfig.fromFragment fragment validator = .error e) :
    ∃ name, (IterMap.get? (M := BTreeMap String) fragment.loggers name).isSome = true ∧
      fragment.loggerLevel name = none ∧
        e = (((validator.field "loggers").field name).field "level").errorRequired := by
  rcases bind_eq_error.mp h with h | ⟨loggers, -, h⟩
  · obtain ⟨name, logger, hget, hlogger, -⟩ := BTreeMap.exists_of_traverse_eq_error h
    obtain ⟨hlevel, he⟩ := LoggerConfig.fromFragment_eq_error_iff.mp hlogger
    refine ⟨name, by rw [hget]; rfl, ?_, he.symm⟩
    rw [AutomaticContainerLogConfigFragment.loggerLevel, hget]
    exact hlevel
  · cases h

/-- **The merged choice of a container**: it is valid iff nothing is unset, and then it is what the
leading choices settle. -/
theorem fromFragment_mergeAll {fragment : ContainerLogConfigChoiceFragment}
    (hfragment : mergeAll choices = some fragment) (validator : Validator) :
    (∃ choice, fromFragment fragment validator = .ok choice ∧ Settles choices choice ∧
        ∀ path, ¬ Unset choices path) ∨
      ∃ path, Unset choices path ∧ ∃ e, fromFragment fragment validator = .error e ∧
        e.path.idents = path.reverse ++ validator.idents := by
  cases choices with
  | nil => cases hfragment
  | cons first choices =>
    cases first with
    -- the first choice is custom: the name of the ConfigMap is all there is to settle
    | custom first =>
      obtain ⟨merged, hmerged, hname⟩ := mergeAll_custom first choices
      obtain rfl := Option.some.inj (hmerged.symm.trans hfragment)
      have hfrom : fromFragment (.custom merged) validator =
          (fromRequired merged.configMap
            ((validator.field "custom").field "config_map")).map .custom := rfl
      cases hcase : merged.configMap with
      | some configMap =>
        refine .inl ⟨.custom configMap, ?_, hname.symm.trans hcase, ?_⟩
        · rw [hfrom, hcase]
          rfl
        · intro path hunset
          cases hunset with
          | custom _ hnone => cases (hname.symm.trans hcase).symm.trans hnone
          | automatic hmem _ _ => cases hmem
      | none =>
        refine .inr ⟨_, .custom (List.cons_ne_nil _ _) (hname.symm.trans hcase),
          ((validator.field "custom").field "config_map").errorRequired, ?_, rfl⟩
        rw [hfrom, hcase]
        rfl
    -- the first choice is automatic: every logger needs a level
    | automatic first =>
      obtain ⟨merged, hmerged, hmerges⟩ := mergeAll_automatic first choices
      obtain rfl := Option.some.inj (hmerged.symm.trans hfragment)
      have hfrom : fromFragment (.automatic merged) validator =
          (AutomaticContainerLogConfig.fromFragment merged validator).map .automatic := rfl
      cases hcase : AutomaticContainerLogConfig.fromFragment merged validator with
      | ok config =>
        obtain ⟨hreflects, hset⟩ := reflects_of_fromFragment hmerges hcase
        refine .inl ⟨.automatic config, ?_, ⟨List.cons_ne_nil _ _, hreflects⟩, ?_⟩
        · rw [hfrom, hcase]
          rfl
        · intro path hunset
          cases hunset with
          | custom hne _ => exact hne rfl
          | automatic hmem hname hnone =>
            exact hset _ ((hmerges.names _).mpr ⟨_, hmem, hname⟩) hnone
      | error e =>
        obtain ⟨name, hname, hlevel, rfl⟩ := exists_of_fromFragment_eq_error hcase
        obtain ⟨layer, hlayer, hsome⟩ := (hmerges.names name).mp hname
        refine .inr ⟨_, .automatic hlayer hsome ((hmerges.loggers name).symm.trans hlevel),
          (((validator.field "loggers").field name).field "level").errorRequired, ?_, rfl⟩
        rw [hfrom, hcase]
        rfl

end ContainerLogConfigChoice

theorem ContainerLogConfig.fromFragment_some (choice : ContainerLogConfigChoiceFragment)
    (validator : Validator) :
    ContainerLogConfig.fromFragment ⟨some choice⟩ validator =
      (ContainerLogConfigChoice.fromFragment choice (validator.field "choice")).map
        fun choice => ⟨some choice⟩ := rfl

/-! ### Validated configurations -/

namespace Logging

open ContainerLogConfigChoiceFragment

variable {T : Type} [LinearOrder T] {display : T → String}

/-- The choices of all layers for a container, the most specific one first. -/
def choicesAt (layers : List (LoggingFragment T)) (container : T) :
    List ContainerLogConfigChoiceFragment :=
  layers.filterMap (LoggingFragment.choiceAt container)

/-- A valid configuration has a valid choice for each container with a choice. -/
theorem of_fromFragment_eq_ok {fragment : LoggingFragment T} {validator : Validator}
    {logging : Logging T} (h : fromFragment display fragment validator = .ok logging) :
    fragment.enableVectorAgent = some logging.enableVectorAgent ∧ ∀ container,
      Option.Rel (fun choice value => ContainerLogConfigChoice.fromFragment choice
          (((validator.field "containers").field (display container)).field "choice") = .ok value)
        (fragment.choiceAt container)
        ((IterMap.get? (M := BTreeMap T) logging.containers container).bind
          ContainerLogConfig.choice) := by
  obtain ⟨enableVectorAgent, henable, h⟩ := bind_eq_ok.mp h
  obtain ⟨containers, hcontainers, h⟩ := bind_eq_ok.mp h
  obtain rfl := Except.ok.inj h
  refine ⟨fromRequired_eq_ok_iff.mp henable, fun container => ?_⟩
  have hrel := IterMap.rel_of_traverse_eq_ok (M := BTreeMap T) hcontainers container
  rw [LoggingFragment.choiceAt]
  generalize IterMap.get? (M := BTreeMap T) fragment.containers container = config at hrel
  generalize IterMap.get? (M := BTreeMap T) containers container = value at hrel
  cases hrel with
  | none => exact .none
  | @some config value hconfig =>
    obtain ⟨_ | choice⟩ := config
    · obtain rfl := Except.ok.inj hconfig
      exact .none
    · rw [ContainerLogConfig.fromFragment_some] at hconfig
      cases hchoice : ContainerLogConfigChoice.fromFragment choice
          (((validator.field "containers").field (display container)).field "choice") with
      | error e =>
        rw [hchoice] at hconfig
        cases hconfig
      | ok value =>
        rw [hchoice] at hconfig
        obtain rfl := Except.ok.inj hconfig
        exact .some hchoice

/-- An invalid configuration has no value for the agent, or an invalid choice for a container. -/
theorem of_fromFragment_eq_error {fragment : LoggingFragment T} {validator : Validator}
    {e : ValidationError} (h : fromFragment display fragment validator = .error e) :
    fragment.enableVectorAgent = none ∨ ∃ container choice,
      fragment.choiceAt container = some choice ∧
      ContainerLogConfigChoice.fromFragment choice
        (((validator.field "containers").field (display container)).field "choice") = .error e := by
  rcases bind_eq_error.mp h with henable | ⟨enableVectorAgent, -, h⟩
  · exact .inl (fromRequired_eq_error_iff.mp henable).1
  · rcases bind_eq_error.mp h with h | ⟨containers, -, h⟩
    · obtain ⟨container, ⟨_ | choice⟩, hget, hconfig, -⟩ := BTreeMap.exists_of_traverse_eq_error h
      · cases hconfig
      · refine .inr ⟨container, choice, ?_, ?_⟩
        · rw [LoggingFragment.choiceAt, hget]
          rfl
        · rw [ContainerLogConfig.fromFragment_some] at hconfig
          cases hchoice : ContainerLogConfigChoice.fromFragment choice
              (((validator.field "containers").field (display container)).field "choice") with
          | error e' =>
            rw [hchoice] at hconfig
            exact congrArg _ (Except.error.inj hconfig)
          | ok value =>
            rw [hchoice] at hconfig
            cases hconfig
    · cases h

/-- The layers of a role group are the role group and the role. -/
theorem validateConfig_eq {CommonConfig : Type}
    (roleGroup : RoleGroup (LoggingFragment T) CommonConfig)
    (role : Role (LoggingFragment T) CommonConfig) (defaults : LoggingFragment T) :
    roleGroup.validateConfig (validate display) role defaults =
      validate display
        ([roleGroup.config.config, role.config.config].foldr LoggingFragment.merge defaults) := rfl

theorem enableVectorAgent_foldr (layers : List (LoggingFragment T)) (containers : List T) :
    (layers.foldr LoggingFragment.merge (defaultLogging containers)).enableVectorAgent ≠ none := by
  induction layers with
  | nil => simp [defaultLogging]
  | cons layer layers ih =>
    rw [List.foldr_cons, LoggingFragment.merge]
    cases layer.enableVectorAgent with
    | none => exact ih
    | some enableVectorAgent => simp

/-- Each container has a default choice. -/
theorem choiceAt_defaultLogging {containers : List T} {container : T} (h : container ∈ containers) :
    (defaultLogging containers).choiceAt container = defaultContainerLogConfig.choice := by
  have hget : ∀ (l : List T) (m : BTreeMap T ContainerLogConfigFragment),
      container ∈ l ∨ IterMap.get? (M := BTreeMap T) m container = some defaultContainerLogConfig →
      IterMap.get? (M := BTreeMap T) ((l.map fun c => (c, defaultContainerLogConfig)).foldl
        (fun m e => IterMap.insert (M := BTreeMap T) m e.1 e.2) m) container =
          some defaultContainerLogConfig := by
    intro l
    induction l with
    | nil => exact fun m hm => hm.resolve_left List.not_mem_nil
    | cons c l ih =>
      intro m hm
      refine ih _ ?_
      by_cases hc : container = c
      · subst hc
        exact .inr (IterMap.get?_insert_self (M := BTreeMap T) m container _)
      · rw [List.mem_cons, or_iff_right hc] at hm
        exact hm.imp_right fun hm =>
          (IterMap.get?_insert_of_ne (M := BTreeMap T) m _ hc).trans hm
  have hdefault := hget containers (IterMap.empty (M := BTreeMap T)) (.inl h)
  rw [LoggingFragment.choiceAt, defaultLogging, IterMap.collect, hdefault, Option.bind_some]

theorem choicesAt_ne_nil (layers : List (LoggingFragment T)) {containers : List T} {container : T}
    (h : container ∈ containers) :
    choicesAt (layers ++ [defaultLogging containers]) container ≠ [] := by
  rw [choicesAt, List.filterMap_append, List.filterMap_cons, choiceAt_defaultLogging h]
  exact List.append_ne_nil_of_right_ne_nil _ (List.cons_ne_nil _ _)

/-- A valid configuration has what the choices of the layers settle. -/
theorem settles_of_validate {layers : List (LoggingFragment T)} {containers : List T}
    {logging : Logging T}
    (h : validate display (layers.foldr LoggingFragment.merge (defaultLogging containers)) =
      .ok logging) {container : T}
    (hne : choicesAt (layers ++ [defaultLogging containers]) container ≠ []) :
    ∃ choice,
      (IterMap.get? (M := BTreeMap T) logging.containers container).bind
        ContainerLogConfig.choice = some choice ∧
      ContainerLogConfigChoice.Settles
        (choicesAt (layers ++ [defaultLogging containers]) container) choice ∧
      ∀ path, ¬ Unset (choicesAt (layers ++ [defaultLogging containers]) container) path := by
  obtain ⟨fragment, hfragment⟩ := exists_mergeAll hne
  have hrel := (of_fromFragment_eq_ok h).2 container
  rw [LoggingFragment.choiceAt_foldr, ← choicesAt, hfragment] at hrel
  generalize (IterMap.get? (M := BTreeMap T) logging.containers container).bind
    ContainerLogConfig.choice = value at hrel
  cases hrel with
  | @some _ choice hchoice =>
    rcases ContainerLogConfigChoice.fromFragment_mergeAll hfragment
        (((Validator.root.field "containers").field (display container)).field "choice") with
      ⟨choice', hchoice', hsettles, hset⟩ | ⟨path, -, e, he, -⟩
    · obtain rfl := Except.ok.inj (hchoice'.symm.trans hchoice)
      exact ⟨choice', rfl, hsettles, hset⟩
    · cases he.symm.trans hchoice

/-- **When a logging configuration is valid.** The layers are merged over the defaults. The result
is valid iff for no container the leading choices leave a custom configuration without ConfigMap or
a logger without level, and otherwise the error is the path to such a place. -/
theorem validate_iff (display : T → String) (layers : List (LoggingFragment T))
    (containers : List T) :
    ((∃ logging, validate display
          (layers.foldr LoggingFragment.merge (defaultLogging containers)) = .ok logging) ↔
        ∀ container path,
          ¬ Unset (choicesAt (layers ++ [defaultLogging containers]) container) path) ∧
      ∀ e, validate display
          (layers.foldr LoggingFragment.merge (defaultLogging containers)) = .error e →
        ∃ container path,
          Unset (choicesAt (layers ++ [defaultLogging containers]) container) path ∧
          e.path.idents.reverse = "containers" :: display container :: "choice" :: path := by
  have hchoice := fun container =>
    LoggingFragment.choiceAt_foldr container layers (defaultLogging containers)
  -- an error comes from the choice of one container
  have herror : ∀ e, validate display
      (layers.foldr LoggingFragment.merge (defaultLogging containers)) = .error e →
        ∃ container path,
          Unset (choicesAt (layers ++ [defaultLogging containers]) container) path ∧
          e.path.idents.reverse = "containers" :: display container :: "choice" :: path := by
    intro e he
    rcases of_fromFragment_eq_error he with hnone | ⟨container, choice, hcontainer, hfrom⟩
    · exact absurd hnone (enableVectorAgent_foldr layers containers)
    · rw [hchoice container] at hcontainer
      rcases ContainerLogConfigChoice.fromFragment_mergeAll hcontainer
          (((Validator.root.field "containers").field (display container)).field "choice") with
        ⟨value, hvalue, -, -⟩ | ⟨path, hunset, e', he', hidents⟩
      · cases hvalue.symm.trans hfrom
      · obtain rfl := Except.error.inj (he'.symm.trans hfrom)
        refine ⟨container, path, hunset, ?_⟩
        rw [hidents]
        simp
  refine ⟨⟨?_, fun hset => ?_⟩, herror⟩
  · rintro ⟨logging, hlogging⟩ container path hunset
    obtain ⟨-, -, -, hset⟩ := settles_of_validate hlogging (ne_nil_of_unset hunset)
    exact hset path hunset
  · rcases exists_ok_or_exists_error (validate display
      (layers.foldr LoggingFragment.merge (defaultLogging containers))) with hok | ⟨e, he⟩
    · exact hok
    · obtain ⟨container, path, hunset, -⟩ := herror e he
      exact absurd hunset (hset container path)

/-- **The effective logging configuration.** Every container has a choice, and it is what the
leading choices of the layers settle. Only the name of a ConfigMap can still be invalid. -/
theorem effective_of_validate (display : T → String) (layers : List (LoggingFragment T))
    {containers : List T} {logging : Logging T}
    (h : validate display (layers.foldr LoggingFragment.merge (defaultLogging containers)) =
      .ok logging) {container : T} (hcontainer : container ∈ containers) :
    (∃ config,
        ContainerLogConfigChoice.Settles
          (choicesAt (layers ++ [defaultLogging containers]) container) (.automatic config) ∧
        V2.validateLoggingConfigurationForContainer display logging container =
          .ok (.automatic config)) ∨
      ∃ name,
        ContainerLogConfigChoice.Settles
          (choicesAt (layers ++ [defaultLogging containers]) container) (.custom name) ∧
        ((∃ configMap : V2.ConfigMapName, configMap.1 = name ∧
            V2.validateLoggingConfigurationForContainer display logging container =
              .ok (.custom configMap)) ∨
          (¬ ∃ configMap : V2.ConfigMapName, configMap.1 = name) ∧ ∃ source,
            V2.validateLoggingConfigurationForContainer display logging container =
              .error (.parseContainerName source)) := by
  obtain ⟨choice, hchoice, hsettles, -⟩ :=
    settles_of_validate h (choicesAt_ne_nil layers hcontainer)
  cases choice with
  | automatic config =>
    refine .inl ⟨config, hsettles, ?_⟩
    rw [V2.validateLoggingConfigurationForContainer, hchoice]
  | custom name =>
    refine .inr ⟨name, hsettles, ?_⟩
    rw [V2.validateLoggingConfigurationForContainer, hchoice]
    dsimp only
    cases hname : V2.AttributedString.fromStr [.isRfc1123DnsSubdomainName] name with
    | ok configMap => exact .inl ⟨configMap, V2.AttributedString.fromStr_eq_ok_iff.mp hname, rfl⟩
    | error source =>
      refine .inr ⟨?_, source, rfl⟩
      rintro ⟨configMap, rfl⟩
      cases (V2.AttributedString.fromStr_eq_ok configMap.2).symm.trans hname

/-- A role that sets the level of the root logger, for one container. -/
def simpleLayer : LoggingFragment ℕ where
  enableVectorAgent := none
  containers := IterMap.collect (M := BTreeMap ℕ) [(0, ⟨some (.automatic
    { loggers := IterMap.collect (M := BTreeMap String) [("ROOT", ⟨some .debug⟩)]
      console := none
      file := none })⟩)]

theorem effective_of_validate_simpleLayer :
    ∃ config, ContainerLogConfigChoice.Settles
      (choicesAt ([simpleLayer] ++ [defaultLogging [0]]) 0) (.automatic config) := by
  obtain ⟨logging, h⟩ : ∃ logging, validate toString
      ([simpleLayer].foldr LoggingFragment.merge (defaultLogging [0])) = .ok logging := ⟨_, rfl⟩
  rcases effective_of_validate toString [simpleLayer] h (List.mem_singleton.mpr rfl) with
    ⟨config, hsettles, -⟩ | ⟨name, hsettles, -⟩
  · exact ⟨config, hsettles⟩
  · cases hsettles

end Logging

end StackableOperator
