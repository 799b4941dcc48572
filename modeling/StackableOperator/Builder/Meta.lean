import Mathlib
import StackableOperator.Kube.Object
import StackableOperator.Kvp.Annotation
import StackableOperator.Kvp.Label

/-!
# Builders of object metadata

`ObjectMetaBuilder` and `OwnerReferenceBuilder` collect the fields of the metadata of an object.
Only the owner reference can fail, if one of its mandatory fields was not set.
-/

namespace StackableOperator

namespace Builder

/-- A reference to the owner of an object, with all fields that are written. -/
structure OwnerReference where
  apiVersion : String
  blockOwnerDeletion : Option Bool
  controller : Option Bool
  kind : String
  name : String
  uid : String
  deriving DecidableEq

/-- The metadata of an object, with all fields that are written. -/
structure ObjectMeta where
  annotations : Option (BTreeMap String String) := none
  finalizers : Option (List String) := none
  generateName : Option String := none
  labels : Option (BTreeMap String String) := none
  name : Option String := none
  «namespace» : Option String := none
  ownerReferences : Option (List OwnerReference) := none
  deriving DecidableEq

/-- A resource of a kind that is known at compile time. -/
structure Resource where
  apiVersion : String
  kind : String
  metadata : StackableOperator.ObjectMeta

inductive Error : Type
  | missingObjectKey (key : String)
  deriving DecidableEq

structure OwnerReferenceBuilder where
  apiVersion : Option String := none
  blockOwnerDeletion : Option Bool := none
  controller : Option Bool := none
  kind : Option String := none
  name : Option String := none
  uid : Option String := none

namespace OwnerReferenceBuilder

def new : OwnerReferenceBuilder := {}

/-- Point to the resource. `controller` and `blockOwnerDeletion` are not set. -/
def initializeFromResource (self : OwnerReferenceBuilder) (resource : Resource) :
    OwnerReferenceBuilder :=
  { self with
    apiVersion := some resource.apiVersion
    kind := some resource.kind
    name := some resource.metadata.nameAny
    uid := resource.metadata.uid }

def withName (self : OwnerReferenceBuilder) (name : String) : OwnerReferenceBuilder :=
  { self with name := some name }

def withUid (self : OwnerReferenceBuilder) (uid : String) : OwnerReferenceBuilder :=
  { self with uid := some uid }

def blockOwnerDeletionOpt (self : OwnerReferenceBuilder) (blockOwnerDeletion : Option Bool) :
    OwnerReferenceBuilder :=
  { self with blockOwnerDeletion := blockOwnerDeletion }

def controllerOpt (self : OwnerReferenceBuilder) (controller : Option Bool) :
    OwnerReferenceBuilder :=
  { self with controller := controller }

def build (self : OwnerReferenceBuilder) : Except Error OwnerReference :=
  match self.apiVersion with
  | none => .error (.missingObjectKey "api_version")
  | some apiVersion =>
    match self.kind with
    | none => .error (.missingObjectKey "kind")
    | some kind =>
      match self.name with
      | none => .error (.missingObjectKey "name")
      | some name =>
        match self.uid with
        | none => .error (.missingObjectKey "uid")
        | some uid =>
          .ok
            { apiVersion := apiVersion
              blockOwnerDeletion := self.blockOwnerDeletion
              controller := self.controller
              kind := kind
              name := name
              uid := uid }

end OwnerReferenceBuilder

structure ObjectMetaBuilder where
  annotations : Option Kvp.Annotations := none
  finalizers : Option (List String) := none
  generateName : Option String := none
  labels : Option Kvp.Labels := none
  «namespace» : Option String := none
  name : Option String := none
  ownerreference : Option OwnerReference := none

namespace ObjectMetaBuilder

def new : ObjectMetaBuilder := {}

def nameOpt (self : ObjectMetaBuilder) (name : Option String) : ObjectMetaBuilder :=
  { self with name := name }

def withName (self : ObjectMetaBuilder) (name : String) : ObjectMetaBuilder :=
  self.nameOpt (some name)

def namespaceOpt (self : ObjectMetaBuilder) (namespace' : Option String) : ObjectMetaBuilder :=
  { self with «namespace» := namespace' }

def withNamespace (self : ObjectMetaBuilder) (namespace' : String) : ObjectMetaBuilder :=
  self.namespaceOpt (some namespace')

/-- Set the name and the namespace of a resource. -/
def nameAndNamespace (self : ObjectMetaBuilder) (resource : Resource) : ObjectMetaBuilder :=
  { self with
    name := some resource.metadata.nameAny
    «namespace» := resource.metadata.namespace }

def withOwnerreference (self : ObjectMetaBuilder) (ownerreference : OwnerReference) :
    ObjectMetaBuilder :=
  { self with ownerreference := some ownerreference }

def ownerreferenceFromResource (self : ObjectMetaBuilder) (resource : Resource)
    (blockOwnerDeletion controller : Option Bool) : Except Error ObjectMetaBuilder :=
  match (((OwnerReferenceBuilder.new.initializeFromResource resource).blockOwnerDeletionOpt
      blockOwnerDeletion).controllerOpt controller).build with
  | .error e => .error e
  | .ok ownerreference => .ok (self.withOwnerreference ownerreference)

/-- Replace all annotations. -/
def replaceAnnotations (self : ObjectMetaBuilder) (annotations : Kvp.Annotations) :
    ObjectMetaBuilder :=
  { self with annotations := some annotations }

/-- Add a label, overwriting one with the same key. -/
def withLabel (self : ObjectMetaBuilder) (label : Kvp.Label) : ObjectMetaBuilder :=
  { self with labels := some ((self.labels.getD Kvp.Labels.new).insert label) }

/-- Add labels, overwriting those with the same keys. -/
def withLabels (self : ObjectMetaBuilder) (labels : Kvp.Labels) : ObjectMetaBuilder :=
  { self with labels := some ((self.labels.getD Kvp.Labels.new).extend labels) }

def build (self : ObjectMetaBuilder) : ObjectMeta where
  generateName := self.generateName
  name := self.name
  «namespace» := self.namespace
  ownerReferences := self.ownerreference.map fun ownerreference => [ownerreference]
  labels := self.labels.map Kvp.Labels.toBTreeMap
  annotations := self.annotations.map Kvp.Annotations.toBTreeMap
  finalizers := self.finalizers

/-- The metadata of a resource that is controlled by its owner. -/
def controlledBy (owner : Resource) (uid name : String) (labels : Kvp.Labels) : ObjectMeta where
  labels := some labels.toBTreeMap
  name := some name
  «namespace» := owner.metadata.namespace
  ownerReferences := some [
    { apiVersion := owner.apiVersion
      blockOwnerDeletion := none
      controller := some true
      kind := owner.kind
      name := owner.metadata.nameAny
      uid := uid }]

/-- Only the UID of a resource can be missing. -/
theorem ownerreferenceFromResource_eq_ok (self : ObjectMetaBuilder) {resource : Resource}
    (blockOwnerDeletion controller : Option Bool) {uid : String}
    (h : resource.metadata.uid = some uid) :
    self.ownerreferenceFromResource resource blockOwnerDeletion controller =
      .ok (self.withOwnerreference
        { apiVersion := resource.apiVersion
          blockOwnerDeletion := blockOwnerDeletion
          controller := controller
          kind := resource.kind
          name := resource.metadata.nameAny
          uid := uid }) := by
  simp only [ownerreferenceFromResource, OwnerReferenceBuilder.controllerOpt,
    OwnerReferenceBuilder.blockOwnerDeletionOpt, OwnerReferenceBuilder.initializeFromResource,
    OwnerReferenceBuilder.build, h]

end ObjectMetaBuilder

end Builder

end StackableOperator
