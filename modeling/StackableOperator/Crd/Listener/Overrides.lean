import Mathlib
import StackableOperator.Crd.Listener.Listeners

/-!
# Overrides of Listeners

An override of a Listener sets some fields of its specification. The document of the override is
read as a Listener, where a missing `publishNotReadyAddresses` is read as true.
`applyTo_listener_iff` says that only the fields that are mentioned change iff
`publishNotReadyAddresses` is mentioned or true already.
-/

namespace StackableOperator

namespace Listener

open Deserialize

/-! ### Documents -/

/-- A port with all of its fields. -/
structure CompletePort where
  name : String
  port : Int32
  protocol : String

def CompletePort.listenerPort (self : CompletePort) : ListenerPort :=
  ⟨self.name, self.port, some self.protocol⟩

/-- The fields of the specification that an override sets. -/
structure SpecOverride where
  className : Option String := none
  extraPodSelectorLabels : Option (BTreeMap String String) := none
  ports : Option (List CompletePort) := none
  publishNotReadyAddresses : Option Bool := none

def CompletePort.toValue (self : CompletePort) : Value :=
  objectOfFields [("name", some (.string self.name)),
    ("port", some (.number (toString self.port.toInt))),
    ("protocol", some (.string self.protocol))]

namespace SpecOverride

variable (self : SpecOverride)

/-- The fields of the document. -/
def fields : List (String × Option Value) :=
  [("className", self.className.map .string),
    ("extraPodSelectorLabels", self.extraPodSelectorLabels.map (objectOfMap .string)),
    ("ports", self.ports.map fun ports => .array (ports.map CompletePort.toValue)),
    ("publishNotReadyAddresses", self.publishNotReadyAddresses.map .bool)]

def toValue : Value := objectOfFields [("spec", some (objectOfFields self.fields))]

/-- The ports that the override sets. -/
def listenerPorts : Option (List ListenerPort) :=
  self.ports.map (List.map CompletePort.listenerPort)

/-- What the override is read as. -/
def listenerSpec : ListenerSpec where
  className := self.className
  extraPodSelectorLabels := self.extraPodSelectorLabels.getD ∅
  ports := self.listenerPorts
  publishNotReadyAddresses := some (self.publishNotReadyAddresses.getD true)
  objectOverrides := []

end SpecOverride

/-! ### Reading documents -/

theorem deserialize_completePort (port : CompletePort) :
    ListenerPort.deserialize port.toValue = .ok port.listenerPort := by
  have hname : field string "name" port.toValue = .ok port.name := by
    rw [field, CompletePort.toValue, fieldOr_objectOfFields]
    rfl
  have hport : field i32 "port" port.toValue = .ok port.port := by
    rw [field, CompletePort.toValue, fieldOr_objectOfFields]
    exact i32_number port.port
  have hprotocol : optionField string "protocol" port.toValue = .ok (some port.protocol) := by
    rw [optionField, CompletePort.toValue, fieldOr_objectOfFields]
    rfl
  rw [ListenerPort.deserialize, hname, hport, hprotocol]
  rfl

/-- A field of an override is read as it was set, or with its default. -/
theorem getD_map_read {α β : Type} {read : Deserialize β} {write : α → Value} {f : α → β}
    {default : β} (x : Option α) (h : ∀ a, read (write a) = .ok (f a)) :
    ((x.map write).map read).getD (.ok default) = .ok (x.elim default f) := by
  match x with
  | none => rfl
  | some a => exact h a

theorem list_ports (ports : List CompletePort) :
    list ListenerPort.deserialize (.array (ports.map CompletePort.toValue)) =
      .ok (ports.map CompletePort.listenerPort) := by
  rw [list, mapM_eq_ok_iff, List.forall₂_map_left_iff, List.forall₂_map_right_iff,
    List.forall₂_same]
  exact fun port _ => deserialize_completePort port

/-- The specification in the document of an override. -/
theorem deserialize_fields (objects : Deserialize ObjectOverrides) (o : SpecOverride) :
    ListenerSpec.deserialize objects (objectOfFields o.fields) = .ok o.listenerSpec := by
  have hclassName : optionField string "className" (objectOfFields o.fields) = .ok o.className := by
    have hclassName (name : String) : option string (.string name) = .ok (some name) := rfl
    rw [optionField, fieldOr_objectOfFields]
    refine (getD_map_read o.className hclassName).trans ?_
    cases o.className <;> rfl
  have hlabels : fieldOr (.ok ∅) (map string) "extraPodSelectorLabels" (objectOfFields o.fields) =
      .ok (o.extraPodSelectorLabels.getD ∅) := by
    have hlabels (labels : BTreeMap String String) :
        map string (objectOfMap .string labels) = .ok labels := map_objectOfMap labels fun _ => rfl
    rw [fieldOr_objectOfFields]
    refine (getD_map_read o.extraPodSelectorLabels hlabels).trans ?_
    cases o.extraPodSelectorLabels <;> rfl
  have hports : optionField (list ListenerPort.deserialize) "ports" (objectOfFields o.fields) =
      .ok o.listenerPorts := by
    have hports (ports : List CompletePort) :
        option (list ListenerPort.deserialize) (.array (ports.map CompletePort.toValue)) =
          .ok (some (ports.map CompletePort.listenerPort)) :=
      option_of_ok (list_ports ports) (by simp)
    rw [optionField, fieldOr_objectOfFields]
    refine (getD_map_read o.ports hports).trans ?_
    rw [SpecOverride.listenerPorts]
    cases o.ports <;> rfl
  have hpublish : fieldOr (.ok ListenerSpec.defaultPublishNotReadyAddresses) (option bool)
      "publishNotReadyAddresses" (objectOfFields o.fields) =
        .ok (some (o.publishNotReadyAddresses.getD true)) := by
    have hpublish (publish : Bool) : option bool (.bool publish) = .ok (some publish) := rfl
    rw [fieldOr_objectOfFields]
    refine (getD_map_read o.publishNotReadyAddresses hpublish).trans ?_
    cases o.publishNotReadyAddresses <;> rfl
  have hoverrides : fieldOr (.ok []) objects "objectOverrides" (objectOfFields o.fields) =
      .ok [] := by
    rw [fieldOr_objectOfFields]
    rfl
  rw [ListenerSpec.deserialize, hclassName, hlabels, hports, hpublish, hoverrides]
  rfl

/-- The document of an override is read with the default of `publishNotReadyAddresses`. -/
theorem deserialize_toValue (objects : Deserialize ObjectOverrides) (o : SpecOverride) :
    Fields.deserialize objects o.toValue = .ok ⟨o.listenerSpec, none⟩ := by
  have hspec : field (ListenerSpec.deserialize objects) "spec" o.toValue = .ok o.listenerSpec := by
    rw [field, SpecOverride.toValue, fieldOr_objectOfFields]
    exact deserialize_fields objects o
  have hstatus : optionField ListenerStatus.deserialize "status" o.toValue = .ok none := by
    rw [optionField, SpecOverride.toValue, fieldOr_objectOfFields]
    rfl
  rw [Fields.deserialize, hspec, hstatus]
  rfl

/-! ### What changes -/

/-- Only what the override mentions changes, and it changes to what the override says. -/
structure ChangesOnlyMentioned (o : SpecOverride) (base applied : ListenerSpec) : Prop where
  className : applied.className = o.className.or base.className
  labels : ∀ key, IterMap.get? (M := BTreeMap String) applied.extraPodSelectorLabels key =
    (o.extraPodSelectorLabels.bind fun labels =>
      IterMap.get? (M := BTreeMap String) labels key).or
      (IterMap.get? (M := BTreeMap String) base.extraPodSelectorLabels key)
  ports_of_unmentioned : o.ports = none → applied.ports = base.ports
  ports_of_mentioned : ∀ ports, o.listenerPorts = some ports → ∃ merged,
    applied.ports = some merged ∧
      ∀ name port, lastWithKey ListenerPort.name ports name = some port → port ∈ merged
  /-- Ports with unique names stay where they are, and new ports come after them. -/
  ports_of_nodup : ((base.ports.getD []).map ListenerPort.name).Nodup →
    ∃ new, MergedInto ListenerPort.name (base.ports.getD []) (o.listenerPorts.getD []) new
      (applied.ports.getD [])
  publishNotReadyAddresses :
    applied.publishNotReadyAddresses = o.publishNotReadyAddresses.or base.publishNotReadyAddresses
  objectOverrides : applied.objectOverrides = base.objectOverrides

theorem mergeFrom_completePort {o : SpecOverride} {ports : List ListenerPort}
    (h : o.listenerPorts = some ports) :
    ∀ port ∈ ports, ∀ current : ListenerPort, DeepMerge.mergeFrom current port = port := by
  obtain ⟨complete, -, rfl⟩ := Option.map_eq_some_iff.mp h
  intro port hport current
  obtain ⟨c, -, rfl⟩ := List.mem_map.mp hport
  match hprotocol : current.protocol with
  | none => simp [DeepMerge.mergeFrom, CompletePort.listenerPort, hprotocol]
  | some protocol => simp [DeepMerge.mergeFrom, CompletePort.listenerPort, hprotocol]

/-- A merge that replaces values prefers the new one. -/
theorem merge_replace {T : Type} {f : T → T → T} (hf : ∀ a b, f a b = b) (x y : Option T) :
    Option.merge f x y = y.or x := by
  cases x <;> cases y <;> simp [hf]

section Merge

variable (o : SpecOverride) (base : ListenerSpec)

theorem className_mergeFrom :
    (DeepMerge.mergeFrom base o.listenerSpec).className = o.className.or base.className :=
  merge_replace (fun _ _ => rfl) base.className o.className

theorem publishNotReadyAddresses_mergeFrom :
    (DeepMerge.mergeFrom base o.listenerSpec).publishNotReadyAddresses =
      some (o.publishNotReadyAddresses.getD true) :=
  merge_replace (fun _ _ => rfl) base.publishNotReadyAddresses _

theorem label_mergeFrom (key : String) :
    IterMap.get? (M := BTreeMap String)
      (DeepMerge.mergeFrom base o.listenerSpec).extraPodSelectorLabels key =
      (o.extraPodSelectorLabels.bind fun labels =>
        IterMap.get? (M := BTreeMap String) labels key).or
        (IterMap.get? (M := BTreeMap String) base.extraPodSelectorLabels key) := by
  have hmerge : IterMap.get? (M := BTreeMap String)
      (DeepMerge.mergeFrom base o.listenerSpec).extraPodSelectorLabels key =
      (IterMap.get? (M := BTreeMap String) (o.extraPodSelectorLabels.getD ∅) key).or
        (IterMap.get? (M := BTreeMap String) base.extraPodSelectorLabels key) :=
    (IterMap.get?_mergeWith (M := BTreeMap String) _ _ _ key).trans
      (merge_replace (fun _ _ => rfl) _ _)
  have hempty : IterMap.get? (M := BTreeMap String) (∅ : BTreeMap String String) key = none :=
    IterMap.get?_empty (M := BTreeMap String) key
  rw [hmerge]
  match o.extraPodSelectorLabels with
  | none => rw [Option.getD_none, Option.bind_none, hempty]
  | some labels => rfl

/-- The ports of the merged specification. -/
theorem ports_mergeFrom : (DeepMerge.mergeFrom base o.listenerSpec).ports =
    o.listenerPorts.elim base.ports fun ports =>
      some (mergeList ListenerPort.name DeepMerge.mergeFrom (base.ports.getD []) ports) := rfl

theorem mergedInto_ports (hnodup : ((base.ports.getD []).map ListenerPort.name).Nodup) :
    ∃ new, MergedInto ListenerPort.name (base.ports.getD []) (o.listenerPorts.getD []) new
      ((DeepMerge.mergeFrom base o.listenerSpec).ports.getD []) := by
  rw [ports_mergeFrom]
  match hports : o.listenerPorts with
  | none =>
    show ∃ new, MergedInto ListenerPort.name (base.ports.getD []) [] new
      (mergeList ListenerPort.name DeepMerge.mergeFrom (base.ports.getD []) [])
    exact mergedInto_mergeList (by simp) hnodup
  | some ports => exact mergedInto_mergeList (mergeFrom_completePort hports) hnodup

/-- Merging an override changes only what it mentions, unless it changes
`publishNotReadyAddresses`. -/
theorem changesOnlyMentioned_mergeFrom_iff :
    ChangesOnlyMentioned o base (DeepMerge.mergeFrom base o.listenerSpec) ↔
      o.publishNotReadyAddresses.isSome = true ∨ base.publishNotReadyAddresses = some true := by
  have hpublish : some (o.publishNotReadyAddresses.getD true) =
      o.publishNotReadyAddresses.or base.publishNotReadyAddresses ↔
        o.publishNotReadyAddresses.isSome = true ∨ base.publishNotReadyAddresses = some true := by
    cases o.publishNotReadyAddresses <;> simp [eq_comm]
  constructor
  · intro h
    exact hpublish.mp ((publishNotReadyAddresses_mergeFrom o base).symm.trans
      h.publishNotReadyAddresses)
  · intro h
    refine ⟨className_mergeFrom o base, label_mergeFrom o base, fun hnone => ?_,
      fun ports hports => ⟨_, by rw [ports_mergeFrom, hports]; rfl, fun name port hlast => ?_⟩,
      mergedInto_ports o base,
      (publishNotReadyAddresses_mergeFrom o base).trans (hpublish.mpr h), rfl⟩
    · rw [ports_mergeFrom, SpecOverride.listenerPorts, hnone]
      rfl
    · exact lastWithKey_mem_mergeList _ (mergeFrom_completePort hports) hlast

end Merge

/-- **Overrides of Listeners** are applied, and they change only what they mention iff they mention
`publishNotReadyAddresses` or the Listener has it set to true. -/
theorem applyTo_listener_iff (types : KubeTypes Fields) (library : ListenerLibrary)
    (base : Object Fields .listener) (o : SpecOverride) {object : DynamicObject}
    (hdata : object.data = o.toValue) (happlies : object.appliesTo .listener base.metadata = true) :
    ∃ applied, ObjectOverrides.applyTo (types.withListeners library) [object] base =
        (applied, .ok ()) ∧
      (ChangesOnlyMentioned o base.contents.spec applied.contents.spec ↔
        o.publishNotReadyAddresses.isSome = true ∨
          base.contents.spec.publishNotReadyAddresses = some true) := by
  have hparse : (types.withListeners library).tryParse .listener object =
      .ok ⟨object.metadata, ⟨o.listenerSpec, none⟩, ⟨o.listenerSpec, none⟩⟩ := by
    have hread := deserialize_toValue library.objects o
    rw [← hdata] at hread
    simp only [KubeTypes.withListeners, hread]
  refine ⟨(types.withListeners library).mergeFrom base
    ⟨object.metadata, ⟨o.listenerSpec, none⟩, ⟨o.listenerSpec, none⟩⟩, ?_,
    changesOnlyMentioned_mergeFrom_iff o base.contents.spec⟩
  rw [ObjectOverrides.applyTo, ObjectOverrides.applyDeepMerge_eq, happlies, if_pos rfl, hparse]
  rfl

/-- The metadata of a Listener -/
def sampleMetadata : ObjectMeta where
  name := some "listener"
  generateName := none
  «namespace» := some "default"
  labels := none
  ownerReferences := none
  uid := none

/-- A Listener without ports. -/
def sampleListener (publishNotReadyAddresses : Option Bool) : Object Fields .listener :=
  let spec := ⟨some "cluster-internal", ∅, none, publishNotReadyAddresses, []⟩
  ⟨sampleMetadata, ⟨spec, none⟩, ⟨spec, none⟩⟩

/-- An override for the Listener that sets its class. -/
def sampleOverride : SpecOverride := { className := some "external-stable" }

def SpecOverride.object (self : SpecOverride) (metadata : ObjectMeta) : DynamicObject where
  types := some ⟨Kind.listener.apiVersion, Kind.listener.name⟩
  metadata := metadata
  data := self.toValue

/-- Functions for objects without anything besides Listeners. -/
def noTypes : KubeTypes Fields where
  mergeFrom base _ := base
  tryParse _ _ := .error "unknown kind"

def noLibrary : ListenerLibrary where
  mergeMetadata base _ := base
  objects _ := .ok []
  display _ := ""

theorem appliesTo_sampleListener (publishNotReadyAddresses : Option Bool) :
    (sampleOverride.object sampleMetadata).appliesTo .listener
      (sampleListener publishNotReadyAddresses).metadata = true := by
  show (sampleOverride.object sampleMetadata).appliesTo .listener sampleMetadata = true
  decide

theorem applyTo_listener_sample : ∃ applied : Object Fields .listener,
    ObjectOverrides.applyTo (noTypes.withListeners noLibrary)
      [sampleOverride.object sampleMetadata] (sampleListener (some true)) = (applied, .ok ()) ∧
    ChangesOnlyMentioned sampleOverride (sampleListener (some true)).contents.spec
      applied.contents.spec := by
  obtain ⟨applied, happlied, hiff⟩ := applyTo_listener_iff noTypes noLibrary
    (sampleListener (some true)) sampleOverride rfl (appliesTo_sampleListener _)
  exact ⟨applied, happlied, hiff.mpr (Or.inr rfl)⟩

/-- An override that sets only the class also publishes addresses that are not ready. -/
theorem applyTo_listener_publishes : ¬∀ (types : KubeTypes Fields) (library : ListenerLibrary)
    (base : Object Fields .listener) (o : SpecOverride) (object : DynamicObject),
    object.data = o.toValue → object.appliesTo .listener base.metadata = true →
      ∃ applied, ObjectOverrides.applyTo (types.withListeners library) [object] base =
          (applied, .ok ()) ∧
        ChangesOnlyMentioned o base.contents.spec applied.contents.spec := by
  intro h
  have happlies := appliesTo_sampleListener (some false)
  obtain ⟨applied, happlied, hchanges⟩ := h noTypes noLibrary (sampleListener (some false))
    sampleOverride (sampleOverride.object sampleMetadata) rfl happlies
  obtain ⟨applied', happlied', hiff⟩ := applyTo_listener_iff noTypes noLibrary
    (sampleListener (some false)) sampleOverride rfl happlies
  obtain ⟨rfl, -⟩ := Prod.mk.inj (happlied.symm.trans happlied')
  exact absurd (hiff.mp hchanges) (by decide)

end Listener

end StackableOperator
