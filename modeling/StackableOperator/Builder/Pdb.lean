import Mathlib
import StackableOperator.Builder.Meta
import StackableOperator.ClusterResources.Add

/-!
# Pod disruption budgets

The label sets that are made for the names of a role, and the builder of a pod disruption budget
for a role. `PodDisruptionBudgetBuilder.newWithRole_eq_ok` says what the builder holds if all names
are valid label values.
-/

namespace StackableOperator

namespace Kvp

/-- The `app.kubernetes.io/managed-by` label with the full controller name as its value. -/
def Label.managedBy (operatorName controllerName : String) : Except LabelError Label :=
  Label.tryFrom k8sAppManagedByKey (formatFullControllerName operatorName controllerName)

/-- The labels that identify the resources of an owner. -/
def Labels.common (appName appInstance : String) : Except LabelError Labels := do
  let labels := Labels.new
  let labels := labels.insert (← Label.tryFrom k8sAppInstanceKey appInstance)
  let labels := labels.insert (← Label.tryFrom k8sAppNameKey appName)
  return labels

/-- The labels that select the resources of a role. -/
def Labels.roleSelector (owner : Builder.Resource) (appName role : String) :
    Except LabelError Labels := do
  let labels ← Labels.common appName owner.metadata.nameAny
  let labels := labels.insert (← Label.component role)
  return labels

end Kvp

namespace Builder

open Kvp

structure PodDisruptionBudgetBuilder
    (ObjectMeta LabelSelector PodDisruptionBudgetConstraint : Type) where
  metadata : ObjectMeta
  selector : LabelSelector
  /-- Whether the number of available or of unavailable pods is set. -/
  constraint : Option PodDisruptionBudgetConstraint := none

namespace PodDisruptionBudgetBuilder

inductive Error : Type
  | roleSelectorLabels (source : LabelError)
  | ownerReferenceFromResource (source : Builder.Error)
  | managedByLabel (source : LabelError)

/-- The metadata and the selector for a role. The selector has no `managed-by` label. -/
def newWithRole (owner : Resource) (appName role operatorName controllerName : String) :
    Except Error (PodDisruptionBudgetBuilder ObjectMeta LabelSelector Unit) :=
  match Labels.roleSelector owner appName role with
  | .error source => .error (.roleSelectorLabels source)
  | .ok roleSelectorLabels =>
    match Label.managedBy operatorName controllerName with
    | .error source => .error (.managedByLabel source)
    | .ok managedByLabel =>
      match ((ObjectMetaBuilder.new.namespaceOpt owner.metadata.namespace).withName
          (owner.metadata.nameAny ++ "-" ++ role)).ownerreferenceFromResource owner none
            (some true) with
      | .error source => .error (.ownerReferenceFromResource source)
      | .ok metadata =>
        .ok
          { metadata := ((metadata.withLabels roleSelectorLabels).withLabel managedByLabel).build
            selector :=
              { matchExpressions := none
                matchLabels := some roleSelectorLabels.toBTreeMap } }

/-- The builder for a role, from its four labels. -/
def ofLabels (owner : Resource) (role uid : String) (roleSelectorLabels : List Label)
    (managedByLabel : Label) : PodDisruptionBudgetBuilder ObjectMeta LabelSelector Unit where
  metadata := ObjectMetaBuilder.controlledBy owner uid (owner.metadata.nameAny ++ "-" ++ role)
    (Labels.fromIter (roleSelectorLabels ++ [managedByLabel]))
  selector :=
    { matchExpressions := none
      matchLabels := some (Labels.fromIter roleSelectorLabels).toBTreeMap }

/-- **The builder for a role** has the labels of the role and of the controller. -/
theorem newWithRole_eq_ok {owner : Resource} {appName role operatorName controllerName uid : String}
    {instance' name component managedBy : Label} (huid : owner.metadata.uid = some uid)
    (hinstance : Label.instance owner.metadata.nameAny = .ok instance')
    (hname : Label.name appName = .ok name) (hcomponent : Label.component role = .ok component)
    (hmanagedBy : Label.managedBy operatorName controllerName = .ok managedBy) :
    newWithRole owner appName role operatorName controllerName =
      .ok (ofLabels owner role uid [instance', name, component] managedBy) := by
  have hcommon : Labels.common appName owner.metadata.nameAny =
      .ok (Labels.fromIter [instance', name]) := by
    rw [Labels.common, ← Label.instance, hinstance, ← Label.name, hname]
    rfl
  have hselector : Labels.roleSelector owner appName role =
      .ok (Labels.fromIter [instance', name, component]) := by
    rw [Labels.roleSelector, hcommon, hcomponent]
    rfl
  rw [newWithRole, hselector, hmanagedBy]
  dsimp only
  rw [ObjectMetaBuilder.ownerreferenceFromResource_eq_ok _ _ _ huid]
  simp only [ofLabels, ObjectMetaBuilder.controlledBy, ObjectMetaBuilder.build,
    ObjectMetaBuilder.withLabel, ObjectMetaBuilder.withLabels,
    ObjectMetaBuilder.withOwnerreference, ObjectMetaBuilder.withName, ObjectMetaBuilder.nameOpt,
    ObjectMetaBuilder.namespaceOpt, ObjectMetaBuilder.new, Option.getD_none, Option.getD_some,
    Labels.extend_new, Labels.insert_fromIter, Option.map_some, Option.map_none]

/-- Without a `managed-by` label there is no builder. -/
theorem newWithRole_ne_ok {owner : Resource} {appName role operatorName controllerName : String}
    (h : ∀ label, Label.managedBy operatorName controllerName ≠ .ok label)
    (builder : PodDisruptionBudgetBuilder ObjectMeta LabelSelector Unit) :
    newWithRole owner appName role operatorName controllerName ≠ .ok builder := by
  unfold newWithRole
  split
  · simp
  · split
    · simp
    · rename_i label hlabel
      exact absurd hlabel (h label)

end PodDisruptionBudgetBuilder

end Builder

end StackableOperator
