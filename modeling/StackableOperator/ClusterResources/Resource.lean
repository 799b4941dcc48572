import Mathlib
import StackableOperator.Kube.Object

/-!
# The kinds of cluster resources

The types that implement `ClusterResource` are the objects of the kinds of `Kind`. Of their
contents the model keeps what the operator reads or writes: the metadata, the replicas of a
StatefulSet and of a Deployment, and the node selector in the pod template of a DaemonSet. All
other fields are values of one type `F`.

`Object.maybeMutate` adapts an object to the apply strategy: stopping a cluster sets replicas
to zero and gives DaemonSets a node selector that no node satisfies.
-/

namespace StackableOperator

/-- The kinds of cluster resources. -/
inductive Kind : Type
  | service
  | statefulSet
  | daemonSet
  | deployment
  | job
  | configMap
  | secret
  | serviceAccount
  | roleBinding
  | podDisruptionBudget
  | listener
  deriving DecidableEq, Repr

/-- How resources are handled that the operator applies. -/
inductive ClusterResourceApplyStrategy : Type
  /-- Apply resources. -/
  | default
  /-- Only fetch resources. -/
  | reconciliationPaused
  /-- Apply resources, but with no pods scheduled. -/
  | clusterStopped
  /-- Do nothing. -/
  | noApply
  deriving DecidableEq, Repr

/-- Whether orphaned resources are deleted. -/
def ClusterResourceApplyStrategy.deleteOrphans : ClusterResourceApplyStrategy → Bool
  | noApply | reconciliationPaused => false
  | clusterStopped | default => true

namespace Kind

def apiVersion : Kind → String
  | service | configMap | secret | serviceAccount => "v1"
  | statefulSet | daemonSet | deployment => "apps/v1"
  | job => "batch/v1"
  | roleBinding => "rbac.authorization.k8s.io/v1"
  | podDisruptionBudget => "policy/v1"
  | listener => "listeners.stackable.tech/v1alpha1"

/-- The name of the kind. -/
def name : Kind → String
  | service => "Service"
  | statefulSet => "StatefulSet"
  | daemonSet => "DaemonSet"
  | deployment => "Deployment"
  | job => "Job"
  | configMap => "ConfigMap"
  | secret => "Secret"
  | serviceAccount => "ServiceAccount"
  | roleBinding => "RoleBinding"
  | podDisruptionBudget => "PodDisruptionBudget"
  | listener => "Listener"

end Kind

section Objects

variable (F : Type)

structure PodSpec where
  nodeSelector : Option (BTreeMap String String)
  rest : F

structure PodTemplateSpec where
  spec : Option (PodSpec F)
  rest : F

structure DaemonSetSpec where
  template : PodTemplateSpec F
  rest : F

/-- The specification of a StatefulSet or a Deployment. -/
structure ReplicasSpec where
  replicas : Option Int32
  rest : F

/-- The contents of an object besides its metadata. -/
abbrev Kind.Contents : Kind → Type
  | .statefulSet | .deployment => Option (ReplicasSpec F)
  | .daemonSet => Option (DaemonSetSpec F)
  | _ => F

/-- An object of a kind. -/
structure Object (k : Kind) where
  metadata : ObjectMeta
  contents : k.Contents F
  rest : F

end Objects

namespace Object

variable {F : Type}

/-- The replicas in the specification of a StatefulSet or a Deployment. -/
def replicas (spec : Option (ReplicasSpec F)) : Option Int32 := spec.bind fun s => s.replicas

/-- The node selector in the specification of a DaemonSet. -/
def nodeSelector (spec : Option (DaemonSetSpec F)) : Option (BTreeMap String String) :=
  spec.bind fun s => s.template.spec.bind fun p => p.nodeSelector

/-- An entry of this node selector. -/
def nodeSelector? (spec : Option (DaemonSetSpec F)) (key : String) : Option String :=
  (nodeSelector spec).bind fun selector => IterMap.get? (M := BTreeMap String) selector key

variable [Inhabited F]

/-- The entry that no node satisfies. -/
def doNotSchedule : String × String := ("stackable.tech/do-not-schedule", "cluster-stopped")

/-- The node selector with this entry only. -/
def stoppedNodeSelector : BTreeMap String String :=
  IterMap.collect (M := BTreeMap String) [doNotSchedule]

/-- Set the replicas to zero; a missing specification is the default one. -/
def stopReplicas (spec : Option (ReplicasSpec F)) : Option (ReplicasSpec F) :=
  some { spec.getD ⟨none, default⟩ with replicas := some 0 }

/-- Replace the node selector of the pod template. -/
def stopPods (spec : Option (DaemonSetSpec F)) : Option (DaemonSetSpec F) :=
  let spec := spec.getD ⟨⟨none, default⟩, default⟩
  let podSpec := spec.template.spec.getD ⟨none, default⟩
  some { spec with
    template := { spec.template with
      spec := some { podSpec with
        nodeSelector := some stoppedNodeSelector } } }

/-- Adapt an object to the apply strategy. -/
def maybeMutate (strategy : ClusterResourceApplyStrategy) :
    {k : Kind} → Object F k → Object F k
  | .statefulSet, self =>
    match strategy with
    | .clusterStopped => { self with contents := stopReplicas self.contents }
    | _ => self
  | .daemonSet, self =>
    match strategy with
    | .clusterStopped => { self with contents := stopPods self.contents }
    | _ => self
  | .deployment, self =>
    match strategy with
    | .clusterStopped => { self with contents := stopReplicas self.contents }
    | _ => self
  | _, self => self

/-- The metadata is not adapted. -/
@[simp] theorem metadata_maybeMutate (strategy : ClusterResourceApplyStrategy) {k : Kind}
    (self : Object F k) : (self.maybeMutate strategy).metadata = self.metadata := by
  cases k <;> cases strategy <;> rfl

@[simp] theorem replicas_stopReplicas (spec : Option (ReplicasSpec F)) :
    replicas (stopReplicas spec) = some 0 := rfl

@[simp] theorem nodeSelector_stopPods (spec : Option (DaemonSetSpec F)) :
    nodeSelector (stopPods spec) = some stoppedNodeSelector := rfl

theorem get?_stoppedNodeSelector :
    IterMap.get? (M := BTreeMap String) stoppedNodeSelector doNotSchedule.1 =
      some doNotSchedule.2 :=
  (IterMap.get?_collect (by simp)).mpr (by simp)

end Object

end StackableOperator
