import Mathlib
import StackableOperator.DeepMerger
import StackableOperator.ForMathlib.MergeList
import StackableOperator.Json.Deserialize

/-!
# Listeners

A Listener exposes pods. This module has its specification and its status, how they are read from
JSON documents, and how another Listener is merged into one: maps are merged entry by entry, and
lists of ports and of addresses are merged by their names and addresses.
-/

namespace StackableOperator

/-! ### Merge strategies -/

instance : DeepMerge String := ⟨fun _ other => other⟩

instance : DeepMerge Int32 := ⟨fun _ other => other⟩

instance : DeepMerge Bool := ⟨fun _ other => other⟩

/-- A missing value is not merged. -/
instance {T : Type} [DeepMerge T] : DeepMerge (Option T) := ⟨Option.merge DeepMerge.mergeFrom⟩

/-- `merge_strategies::map::granular` -/
def mergeGranular {T : Type} [DeepMerge T] (current new : BTreeMap String T) : BTreeMap String T :=
  IterMap.mergeWith (M := BTreeMap String) DeepMerge.mergeFrom current new

/-- `merge_strategies::list::map` for items that are identified by a key -/
def mergeListBy {T : Type} [DeepMerge T] (key : T → String) (current new : Option (List T)) :
    Option (List T) :=
  new.elim current fun new => some (mergeList key DeepMerge.mergeFrom (current.getD []) new)

namespace Listener

/-! ### Specification and status -/

inductive AddressType : Type
  | hostname
  | ip
  deriving DecidableEq

structure ListenerPort where
  name : String
  port : Int32
  protocol : Option String
  deriving DecidableEq

structure ListenerIngress where
  address : String
  addressType : AddressType
  ports : BTreeMap String Int32

structure ListenerSpec where
  className : Option String
  extraPodSelectorLabels : BTreeMap String String
  ports : Option (List ListenerPort)
  publishNotReadyAddresses : Option Bool
  objectOverrides : ObjectOverrides

structure ListenerStatus where
  serviceName : Option String
  ingressAddresses : Option (List ListenerIngress)
  nodePorts : Option (BTreeMap String Int32)

/-- A Listener without its metadata. -/
structure Fields where
  spec : ListenerSpec
  status : Option ListenerStatus

def ListenerSpec.defaultPublishNotReadyAddresses : Option Bool := some true

/-! ### Merging -/

instance : DeepMerge ListenerPort where
  mergeFrom self other :=
    { name := DeepMerge.mergeFrom self.name other.name
      port := DeepMerge.mergeFrom self.port other.port
      protocol := DeepMerge.mergeFrom self.protocol other.protocol }

instance : DeepMerge ListenerIngress where
  mergeFrom self other :=
    { address := DeepMerge.mergeFrom self.address other.address
      addressType := other.addressType
      ports := mergeGranular self.ports other.ports }

instance : DeepMerge ListenerStatus where
  mergeFrom self other :=
    { serviceName := DeepMerge.mergeFrom self.serviceName other.serviceName
      -- the unique thing identifying an ingress address is its address
      ingressAddresses :=
        mergeListBy ListenerIngress.address self.ingressAddresses other.ingressAddresses
      nodePorts := other.nodePorts.elim self.nodePorts fun new =>
        some (mergeGranular (self.nodePorts.getD ∅) new) }

instance : DeepMerge ListenerSpec where
  mergeFrom self other :=
    { className := DeepMerge.mergeFrom self.className other.className
      extraPodSelectorLabels :=
        mergeGranular self.extraPodSelectorLabels other.extraPodSelectorLabels
      -- the unique thing identifying a port is its name
      ports := mergeListBy ListenerPort.name self.ports other.ports
      publishNotReadyAddresses :=
        DeepMerge.mergeFrom self.publishNotReadyAddresses other.publishNotReadyAddresses
      objectOverrides := self.objectOverrides }

instance : DeepMerge Fields where
  mergeFrom self other :=
    { spec := DeepMerge.mergeFrom self.spec other.spec
      status := DeepMerge.mergeFrom self.status other.status }

/-! ### Reading -/

open Deserialize

def ListenerPort.deserialize : Deserialize ListenerPort := fun v => do
  let name ← field string "name" v
  let port ← field i32 "port" v
  let protocol ← optionField string "protocol" v
  return ⟨name, port, protocol⟩

def ListenerIngress.deserialize : Deserialize ListenerIngress := fun v => do
  let address ← field string "address" v
  let addressType ← field (enum [("Hostname", .hostname), ("IP", .ip)]) "addressType" v
  let ports ← field (map i32) "ports" v
  return ⟨address, addressType, ports⟩

def ListenerStatus.deserialize : Deserialize ListenerStatus := fun v => do
  let serviceName ← optionField string "serviceName" v
  let ingressAddresses ← optionField (list ListenerIngress.deserialize) "ingressAddresses" v
  let nodePorts ← optionField (map i32) "nodePorts" v
  return ⟨serviceName, ingressAddresses, nodePorts⟩

/-- Read a specification, given how the objects of its own overrides are read. -/
def ListenerSpec.deserialize (objects : Deserialize ObjectOverrides) : Deserialize ListenerSpec :=
  fun v => do
    let className ← optionField string "className" v
    let extraPodSelectorLabels ← fieldOr (.ok ∅) (map string) "extraPodSelectorLabels" v
    let ports ← optionField (list ListenerPort.deserialize) "ports" v
    let publishNotReadyAddresses ← fieldOr (.ok defaultPublishNotReadyAddresses) (option bool)
      "publishNotReadyAddresses" v
    let objectOverrides ← fieldOr (.ok []) objects "objectOverrides" v
    return ⟨className, extraPodSelectorLabels, ports, publishNotReadyAddresses, objectOverrides⟩

def Fields.deserialize (objects : Deserialize ObjectOverrides) : Deserialize Fields := fun v => do
  let spec ← field (ListenerSpec.deserialize objects) "spec" v
  let status ← optionField ListenerStatus.deserialize "status" v
  return ⟨spec, status⟩

end Listener

/-! ### Listeners as cluster resources -/

/-- What is needed of libraries to handle Listeners: merging metadata, reading the objects in their
own overrides, and the texts of errors. -/
structure ListenerLibrary where
  mergeMetadata : ObjectMeta → ObjectMeta → ObjectMeta
  objects : Deserialize ObjectOverrides
  display : DeserializeError → String

/-- The functions on cluster resources, for Listeners as they are defined here. -/
def KubeTypes.withListeners (types : KubeTypes Listener.Fields) (library : ListenerLibrary) :
    KubeTypes Listener.Fields where
  mergeFrom {k} :=
    match k with
    | .listener => fun base other =>
      { base with
        metadata := library.mergeMetadata base.metadata other.metadata
        contents := DeepMerge.mergeFrom (T := Listener.Fields) base.contents other.contents }
    | _ => types.mergeFrom
  tryParse
    | .listener => fun object =>
      match Listener.Fields.deserialize library.objects object.data with
      | .ok fields => .ok { metadata := object.metadata, contents := fields, rest := fields }
      | .error e => .error (library.display e)
    | k => types.tryParse k

end StackableOperator
