import Mathlib
import StackableOperator.ForMathlib.IterMap
import StackableOperator.Json

/-!
# Kubernetes objects

The parts of object metadata that the operator reads, objects of a kind that is only known at
run time, references to objects, and label selectors.
-/

namespace StackableOperator

/-- The trait of Kubernetes values that can be merged deeply. -/
class DeepMerge (T : Type) where
  /-- Merge `other` into a value. -/
  mergeFrom : T → T → T

/-! ### Metadata -/

/-- A reference to the owner of an object. -/
structure OwnerReference where
  uid : String
  deriving DecidableEq

structure ObjectMeta where
  name : Option String
  generateName : Option String
  «namespace» : Option String
  labels : Option (BTreeMap String String)
  ownerReferences : Option (List OwnerReference)
  uid : Option String

namespace ObjectMeta

/-- The name, else the prefix that a name is generated from. -/
def nameAny (self : ObjectMeta) : String := (self.name.or self.generateName).getD ""

/-- The value of a label. -/
def label? (self : ObjectMeta) (key : String) : Option String :=
  self.labels.bind fun labels => IterMap.get? (M := BTreeMap String) labels key

/-- Some owner reference has the given uid. -/
def isOwnedBy (self : ObjectMeta) (uid : String) : Bool :=
  (self.ownerReferences.getD []).any fun reference => reference.uid = uid

end ObjectMeta

/-- API version and kind of an object. -/
structure TypeMeta where
  apiVersion : String
  kind : String

/-- An object whose kind is only known at run time. -/
structure DynamicObject where
  types : Option TypeMeta
  metadata : ObjectMeta
  data : Value

/-- A reference to an object. -/
structure ObjectReference where
  name : Option String
  «namespace» : Option String
  uid : Option String

/-! ### Label selectors -/

structure LabelSelectorRequirement where
  key : String
  operator : String
  values : Option (List String)

structure LabelSelector where
  matchExpressions : Option (List LabelSelectorRequirement)
  matchLabels : Option (BTreeMap String String)

/-- A requirement on the value of one label. -/
def LabelSelectorRequirement.Matches (self : LabelSelectorRequirement)
    (metadata : ObjectMeta) : Prop :=
  if self.operator = "In" then
    ∃ value ∈ self.values.getD [], metadata.label? self.key = some value
  else if self.operator = "NotIn" then
    ∀ value ∈ self.values.getD [], metadata.label? self.key ≠ some value
  else if self.operator = "Exists" then metadata.label? self.key ≠ none
  else if self.operator = "DoesNotExist" then metadata.label? self.key = none
  else False
  deriving Decidable

/-- All requirements of a selector hold. -/
def LabelSelector.Matches (self : LabelSelector) (metadata : ObjectMeta) : Prop :=
  (∀ requirement ∈ self.matchExpressions.getD [], requirement.Matches metadata) ∧
    ∀ labels ∈ self.matchLabels, ∀ e ∈ IterMap.iter (M := BTreeMap String) labels,
      metadata.label? e.1 = some e.2
  deriving Decidable

end StackableOperator
