import Mathlib
import StackableOperator.Builder.Pod.Volume
import StackableOperator.ForMathlib.KeyedList
import StackableOperator.ForMathlib.Traverse
import StackableOperator.V2.Builder.Pod.Container
import StackableOperator.Validation

/-!
# Pods and containers

`ContainerBuilder` has one mount for each path, and `PodBuilder` one volume for each name. Adding
the same one again changes nothing, and adding a different one is an error.
`addVolumesAndMounts_of_fresh` says that volumes with different names and mounts with different
paths can be added, also twice.
-/

namespace StackableOperator

/-! ### Containers -/

structure ResourceRequirements where
  limits : List (String × String)
  requests : List (String × String)
  deriving DecidableEq

structure Container where
  args : Option (List String)
  command : Option (List String)
  env : Option (List V2.EnvVar)
  image : Option String
  imagePullPolicy : Option String
  name : String
  resources : Option ResourceRequirements
  volumeMounts : Option (List VolumeMount)
  deriving DecidableEq

structure ContainerBuilder where
  args : Option (List String) := none
  command : Option (List String) := none
  env : Option (List V2.EnvVar) := none
  image : Option String := none
  imagePullPolicy : Option String := none
  name : String
  resources : Option ResourceRequirements := none
  /-- The key is the mount path. -/
  volumeMounts : KeyedList VolumeMount.mountPath := .empty

namespace ContainerBuilder

inductive Error : Type
  | invalidContainerName (source : Validation.Errors) (containerName : String)
  | mountPathCollision (collidingMountPath existingVolumeName newVolumeName : String)
  deriving DecidableEq

def validateContainerName (containerName : String) : Except Error Unit :=
  (Validation.isLowercaseRfc1123Label containerName).mapError fun source =>
    .invalidContainerName source containerName

def new (name : String) : Except Error ContainerBuilder :=
  match validateContainerName name with
  | .error e => .error e
  | .ok () => .ok { name := name }

variable (self : ContainerBuilder)

def withImage (image imagePullPolicy : String) : ContainerBuilder :=
  { self with image := some image, imagePullPolicy := some imagePullPolicy }

def withCommand (command : List String) : ContainerBuilder :=
  { self with command := some command }

def withArgs (args : List String) : ContainerBuilder := { self with args := some args }

def addEnvVars (envVars : List V2.EnvVar) : ContainerBuilder :=
  { self with env := some (self.env.getD [] ++ envVars) }

def withResources (resources : ResourceRequirements) : ContainerBuilder :=
  { self with resources := some resources }

/-- Add mounts one after the other, unless their paths have other mounts. -/
def addVolumeMounts (volumeMounts : List VolumeMount) : Except Error ContainerBuilder :=
  match self.volumeMounts.addAll volumeMounts with
  | .error (existing, new) =>
    .error (.mountPathCollision new.mountPath existing.name new.name)
  | .ok volumeMounts => .ok { self with volumeMounts := volumeMounts }

def addVolumeMount (name path : String) : Except Error ContainerBuilder :=
  self.addVolumeMounts [{ name := name, mountPath := path }]

def build : Container where
  args := self.args
  command := self.command
  env := self.env
  image := self.image
  imagePullPolicy := self.imagePullPolicy
  name := self.name
  resources := self.resources
  volumeMounts :=
    if self.volumeMounts.values.isEmpty then none else some self.volumeMounts.values

end ContainerBuilder

/-! ### Pods -/

/-- The volumes of a pod. -/
structure PodBuilder where
  /-- The key is the name of the volume. -/
  volumes : KeyedList Volume.name := .empty

namespace PodBuilder

inductive Error : Type
  | volumeNameCollision (collidingVolumeName : String)
  deriving DecidableEq

def new : PodBuilder := {}

/-- Add volumes one after the other, unless their names have other volumes. -/
def addVolumes (self : PodBuilder) (volumes : List Volume) : Except Error PodBuilder :=
  match self.volumes.addAll volumes with
  | .error (_, new) => .error (.volumeNameCollision new.name)
  | .ok volumes => .ok { volumes := volumes }

def addVolume (self : PodBuilder) (volume : Volume) : Except Error PodBuilder :=
  self.addVolumes [volume]

end PodBuilder

/-! ### Volumes with their mounts -/

inductive AddVolumesAndMountsError : Type
  | addVolumes (source : PodBuilder.Error)
  | addVolumeMounts (source : ContainerBuilder.Error)
  deriving DecidableEq

/-- Add the volumes to the pod and the mounts to each container. -/
def addVolumesAndMounts (volumes : List Volume) (mounts : List VolumeMount)
    (podBuilder : PodBuilder) (containerBuilders : List ContainerBuilder) :
    Except AddVolumesAndMountsError (PodBuilder × List ContainerBuilder) :=
  match podBuilder.addVolumes volumes with
  | .error source => .error (.addVolumes source)
  | .ok podBuilder =>
    match containerBuilders.mapM fun cb => cb.addVolumeMounts mounts with
    | .error source => .error (.addVolumeMounts source)
    | .ok containerBuilders => .ok (podBuilder, containerBuilders)

/-- Volumes with different names, and mounts of them at different paths. -/
structure ClashFree (volumes : List Volume) (mounts : List VolumeMount) : Prop where
  names : (volumes.map Volume.name).Nodup
  paths : (mounts.map VolumeMount.mountPath).Nodup
  named : ∀ mount ∈ mounts, mount.name ∈ volumes.map Volume.name

namespace ContainerBuilder

theorem addVolumeMounts_of_fresh {self : ContainerBuilder} {mounts : List VolumeMount}
    (hfresh : self.volumeMounts.values = []) (h : (mounts.map VolumeMount.mountPath).Nodup) :
    ∃ r, self.addVolumeMounts mounts = .ok r ∧ r.volumeMounts.values = mounts := by
  have hnodup : ((self.volumeMounts.values ++ mounts).map VolumeMount.mountPath).Nodup := by
    rwa [hfresh]
  obtain ⟨r, hr, hvalues⟩ := KeyedList.addAll_of_nodup hnodup
  refine ⟨{ self with volumeMounts := r }, by rw [addVolumeMounts, hr], ?_⟩
  rw [hvalues, hfresh, List.nil_append]

/-- Mounts that are there are not added again. -/
theorem addVolumeMounts_of_subset {self : ContainerBuilder} {mounts : List VolumeMount}
    (h : ∀ mount ∈ mounts, mount ∈ self.volumeMounts.values) :
    self.addVolumeMounts mounts = .ok self := by
  rw [addVolumeMounts, KeyedList.addAll_of_subset h]

/-- What is mounted after mounts were added. -/
theorem mem_of_addVolumeMounts_eq_ok {self r : ContainerBuilder} {mounts : List VolumeMount}
    (h : self.addVolumeMounts mounts = .ok r) {mount : VolumeMount} :
    mount ∈ r.volumeMounts.values ↔ mount ∈ self.volumeMounts.values ∨ mount ∈ mounts := by
  unfold addVolumeMounts at h
  split at h
  · exact absurd h (by simp)
  · next volumeMounts hadd =>
    rw [← Except.ok.inj h]
    exact KeyedList.mem_of_addAll_eq_ok hadd

/-- A new builder has no mounts. -/
theorem volumeMounts_of_new {name : String} {self : ContainerBuilder} (h : new name = .ok self) :
    self.volumeMounts.values = [] := by
  unfold new at h
  split at h
  · exact absurd h (by simp)
  · rw [← Except.ok.inj h]
    rfl

end ContainerBuilder

namespace PodBuilder

theorem addVolumes_of_fresh {volumes : List Volume} (h : (volumes.map Volume.name).Nodup) :
    ∃ r, new.addVolumes volumes = .ok r ∧ r.volumes.values = volumes := by
  obtain ⟨r, hr, hvalues⟩ : ∃ r, new.volumes.addAll volumes = .ok r ∧
      r.values = new.volumes.values ++ volumes := KeyedList.addAll_of_nodup h
  exact ⟨{ volumes := r }, by rw [addVolumes, hr], hvalues⟩

theorem addVolumes_of_subset {self : PodBuilder} {volumes : List Volume}
    (h : ∀ volume ∈ volumes, volume ∈ self.volumes.values) :
    self.addVolumes volumes = .ok self := by
  rw [addVolumes, KeyedList.addAll_of_subset h]

end PodBuilder

theorem exists_of_forall₂_of_mem_right {α β : Type} {R : α → β → Prop} {l : List α} {r : List β}
    (h : List.Forall₂ R l r) {b : β} (hb : b ∈ r) : ∃ a ∈ l, R a b := by
  induction h with
  | nil => exact absurd hb List.not_mem_nil
  | @cons a c l r hac _ ih =>
    obtain rfl | hb := List.mem_cons.mp hb
    · exact ⟨a, List.mem_cons_self, hac⟩
    · obtain ⟨a', ha', hab⟩ := ih hb
      exact ⟨a', List.mem_cons_of_mem a ha', hab⟩

/-- **Volumes and mounts without clashes** are added to new builders, and adding them again changes
nothing. -/
theorem ClashFree.addVolumesAndMounts_of_fresh {volumes : List Volume} {mounts : List VolumeMount}
    (h : ClashFree volumes mounts) {containerBuilders : List ContainerBuilder}
    (hfresh : ∀ cb ∈ containerBuilders, cb.volumeMounts.values = []) :
    ∃ result, addVolumesAndMounts volumes mounts .new containerBuilders = .ok result ∧
      addVolumesAndMounts volumes mounts result.1 result.2 = .ok result := by
  obtain ⟨pod, hpod, hvolumes⟩ := PodBuilder.addVolumes_of_fresh h.names
  have hcontainers : ∀ cb ∈ containerBuilders, ∃ r, cb.addVolumeMounts mounts = .ok r :=
    fun cb hcb =>
      let ⟨r, hr, _⟩ := ContainerBuilder.addVolumeMounts_of_fresh (hfresh cb hcb) h.paths
      ⟨r, hr⟩
  obtain ⟨results, hresults⟩ := exists_mapM_eq_ok_iff.mpr hcontainers
  have hpodAgain : pod.addVolumes volumes = .ok pod :=
    PodBuilder.addVolumes_of_subset fun volume hvolume => hvolumes ▸ hvolume
  have hagain : results.mapM (fun cb => cb.addVolumeMounts mounts) = .ok results := by
    have hforall := mapM_eq_ok_iff.mp hresults
    rw [mapM_eq_ok_iff, List.forall₂_same]
    intro r hr
    obtain ⟨cb, -, hcb⟩ := exists_of_forall₂_of_mem_right hforall hr
    exact ContainerBuilder.addVolumeMounts_of_subset fun mount hmount =>
      (ContainerBuilder.mem_of_addVolumeMounts_eq_ok hcb).mpr (Or.inr hmount)
  refine ⟨(pod, results), ?_, ?_⟩
  · simp only [addVolumesAndMounts, hpod, hresults]
  · simp only [addVolumesAndMounts, hpodAgain, hagain]

end StackableOperator
