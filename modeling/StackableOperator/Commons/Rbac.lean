import Mathlib
import StackableOperator.Builder.Meta

/-!
# Role-based access control

The service account for the workloads of a product, and the role binding that gives it the cluster
role of the product. Both are named after the owner and can only fail for want of a UID.
-/

namespace StackableOperator

namespace Rbac

open Builder

structure ServiceAccount where
  metadata : Builder.ObjectMeta
  deriving DecidableEq

structure RoleRef where
  apiGroup : Option String
  kind : String
  name : String
  deriving DecidableEq

structure Subject where
  apiGroup : Option String := none
  kind : String
  name : String
  «namespace» : Option String
  deriving DecidableEq

structure RoleBinding where
  metadata : Builder.ObjectMeta
  roleRef : RoleRef
  subjects : Option (List Subject)
  deriving DecidableEq

inductive Error : Type
  | serviceAccountOwnerReferenceFromResource (source : Builder.Error) (name : String)
  | roleBindingOwnerReferenceFromResource (source : Builder.Error) (name : String)
  deriving DecidableEq

def serviceAccountName (rbacPrefix : String) : String := rbacPrefix ++ "-serviceaccount"

def roleBindingName (rbacPrefix : String) : String := rbacPrefix ++ "-rolebinding"

/-- Build the service account and the role binding for the product workloads. -/
def buildRbacResources (resource : Resource) (productName : String) (labels : Kvp.Labels) :
    Except Error (ServiceAccount × RoleBinding) :=
  let saName := serviceAccountName resource.metadata.nameAny
  match ((ObjectMetaBuilder.new.nameAndNamespace resource).withName
      saName).ownerreferenceFromResource resource none (some true) with
  | .error source => .error (.serviceAccountOwnerReferenceFromResource source saName)
  | .ok metadata =>
    let serviceAccount : ServiceAccount := { metadata := (metadata.withLabels labels).build }
    match ((ObjectMetaBuilder.new.nameAndNamespace resource).withName
        (roleBindingName resource.metadata.nameAny)).ownerreferenceFromResource resource none
          (some true) with
    | .error source =>
      .error (.roleBindingOwnerReferenceFromResource source resource.metadata.nameAny)
    | .ok metadata =>
      .ok (serviceAccount,
        { metadata := (metadata.withLabels labels).build
          roleRef :=
            { kind := "ClusterRole"
              name := productName ++ "-clusterrole"
              apiGroup := some "rbac.authorization.k8s.io" }
          subjects := some [
            { kind := "ServiceAccount"
              name := saName
              «namespace» := resource.metadata.namespace }] })

/-- **The RBAC resources** of an owner with a UID. -/
theorem buildRbacResources_eq_ok {resource : Resource} {uid : String} (productName : String)
    (labels : Kvp.Labels) (huid : resource.metadata.uid = some uid) :
    buildRbacResources resource productName labels =
      .ok ({ metadata := ObjectMetaBuilder.controlledBy resource uid
               (serviceAccountName resource.metadata.nameAny) labels },
        { metadata := ObjectMetaBuilder.controlledBy resource uid
            (roleBindingName resource.metadata.nameAny) labels
          roleRef :=
            { kind := "ClusterRole"
              name := productName ++ "-clusterrole"
              apiGroup := some "rbac.authorization.k8s.io" }
          subjects := some [
            { kind := "ServiceAccount"
              name := serviceAccountName resource.metadata.nameAny
              «namespace» := resource.metadata.namespace }] }) := by
  rw [buildRbacResources]
  dsimp only
  rw [ObjectMetaBuilder.ownerreferenceFromResource_eq_ok _ _ _ huid]
  dsimp only
  rw [ObjectMetaBuilder.ownerreferenceFromResource_eq_ok _ _ _ huid]
  simp only [ObjectMetaBuilder.controlledBy, ObjectMetaBuilder.build, ObjectMetaBuilder.withLabels,
    ObjectMetaBuilder.withOwnerreference, ObjectMetaBuilder.withName, ObjectMetaBuilder.nameOpt,
    ObjectMetaBuilder.nameAndNamespace, ObjectMetaBuilder.new, Option.getD_none,
    Kvp.Labels.extend_new, Option.map_some, Option.map_none]

end Rbac

end StackableOperator
