import Mathlib
import StackableOperator.Builder.Pod.Builder

/-!
# Sequences of calls of the pod and container builders

The methods that add volumes and mounts take the builder as `&mut self`, so that a call which fails
can leave something behind. Here they return the builder next to their result.

After any sequence of calls the built pod has one volume for each name, and the built container one
mount for each path: of the accepted ones the first (`PodBuilder.run_unique`,
`ContainerBuilder.run_unique`).
-/

namespace StackableOperator

/-- The volumes of a pod's specification. -/
structure PodBuilder.Spec where
  volumes : Option (List Volume)
  deriving DecidableEq

/-! ### Pods -/

namespace PodBuilder

variable (self : PodBuilder)

/-- `add_volume`, with the builder after the call. -/
def addVolumeMut (volume : Volume) : PodBuilder × Except Error Unit :=
  match self.volumes.add volume with
  | .error (_, new) => (self, .error (.volumeNameCollision new.name))
  | .ok volumes => ({ volumes := volumes }, .ok ())

/-- `add_volumes`, with the builder after the call. -/
def addVolumesMut (self : PodBuilder) : List Volume → PodBuilder × Except Error Unit
  | [] => (self, .ok ())
  | volume :: volumes =>
    match self.addVolumeMut volume with
    | (self, .ok ()) => self.addVolumesMut volumes
    | (self, .error e) => (self, .error e)

def buildSpec : Spec where
  volumes := if self.volumes.values.isEmpty then none else some self.volumes.values

/-- A call that adds volumes. -/
inductive Call : Type
  | addVolume (volume : Volume)
  | addVolumes (volumes : List Volume)

/-- The volumes that a call offers. -/
def Call.batch : Call → List Volume
  | addVolume volume => [volume]
  | addVolumes volumes => volumes

/-- The builder after a call, successful or not. -/
def call (self : PodBuilder) : Call → PodBuilder
  | .addVolume volume => (self.addVolumeMut volume).1
  | .addVolumes volumes => (self.addVolumesMut volumes).1

/-- The builder after a sequence of calls. -/
def run (calls : List Call) : PodBuilder := calls.foldl call new

end PodBuilder

/-! ### Containers -/

namespace ContainerBuilder

variable (self : ContainerBuilder)

/-- `add_volume_mount_impl`, with the builder after the call. -/
def addVolumeMountImpl (volumeMount : VolumeMount) : ContainerBuilder × Except Error Unit :=
  match self.volumeMounts.add volumeMount with
  | .error (existing, new) =>
    (self, .error (.mountPathCollision new.mountPath existing.name new.name))
  | .ok volumeMounts => ({ self with volumeMounts := volumeMounts }, .ok ())

/-- `add_volume_mount`, with the builder after the call. -/
def addVolumeMountMut (name path : String) : ContainerBuilder × Except Error Unit :=
  self.addVolumeMountImpl { name := name, mountPath := path }

/-- `add_volume_mounts`, with the builder after the call. -/
def addVolumeMountsMut (self : ContainerBuilder) :
    List VolumeMount → ContainerBuilder × Except Error Unit
  | [] => (self, .ok ())
  | volumeMount :: volumeMounts =>
    match self.addVolumeMountImpl volumeMount with
    | (self, .ok ()) => self.addVolumeMountsMut volumeMounts
    | (self, .error e) => (self, .error e)

/-- A call that adds mounts. -/
inductive Call : Type
  | addVolumeMount (name path : String)
  | addVolumeMounts (volumeMounts : List VolumeMount)

/-- The mounts that a call offers. -/
def Call.batch : Call → List VolumeMount
  | addVolumeMount name path => [{ name := name, mountPath := path }]
  | addVolumeMounts volumeMounts => volumeMounts

/-- The builder after a call, successful or not. -/
def call (self : ContainerBuilder) : Call → ContainerBuilder
  | .addVolumeMount name path => (self.addVolumeMountMut name path).1
  | .addVolumeMounts volumeMounts => (self.addVolumeMountsMut volumeMounts).1

/-- The builder after a sequence of calls. -/
def run (self : ContainerBuilder) (calls : List Call) : ContainerBuilder := calls.foldl call self

end ContainerBuilder

/-! ### One call -/

/-- What `add` and `addAll`, which add one entry and several entries to a builder, do to it: equal
entries change nothing, a failing `add` neither, and a failing `addAll` adds the entries before the
one that clashes. -/
structure AddsUniquely {B α K E : Type} (key : α → K) (entries : B → List α)
    (add : B → α → B × Except E Unit) (addAll : B → List α → B × Except E Unit) (self : B) :
    Prop where
  nodup : ((entries self).map key).Nodup
  add_of_mem : ∀ a ∈ entries self, add self a = (self, .ok ())
  add_of_error : ∀ a e, (add self a).2 = .error e → (add self a).1 = self
  addAll_of_error : ∀ batch e, (addAll self batch).2 = .error e →
    ∃ front a rest, batch = front ++ a :: rest ∧
      addAll self front = ((addAll self batch).1, .ok ()) ∧
      (∃ b ∈ entries (addAll self batch).1, key b = key a ∧ b ≠ a) ∧
      (add (addAll self batch).1 a).2 = .error e

section Lens

variable {B α K E : Type} {key : α → K} [DecidableEq K] [DecidableEq α] {get : B → KeyedList key}
  {set : B → KeyedList key → B} {clash : α × α → E} {add : B → α → B × Except E Unit}
  {addAll : B → List α → B × Except E Unit}

/-- The result of a call that may have clashed. -/
def resultOf (clash : α × α → E) : Option (α × α) → Except E Unit
  | none => .ok ()
  | some e => .error (clash e)

/-- A field of a builder that is a list with keys. -/
structure AddsTo (get : B → KeyedList key) (set : B → KeyedList key → B) (clash : α × α → E)
    (add : B → α → B × Except E Unit) (addAll : B → List α → B × Except E Unit) : Prop where
  get_set : ∀ self l, get (set self l) = l
  set_get : ∀ self, set self (get self) = self
  add_eq : ∀ self a, add self a =
    (set self ((get self).addEach [a]).1, resultOf clash ((get self).addEach [a]).2)
  addAll_nil : ∀ self, addAll self [] = (self, .ok ())
  addAll_cons : ∀ self a batch, addAll self (a :: batch) =
    match add self a with
    | (self, .ok ()) => addAll self batch
    | (self, .error e) => (self, .error e)
  set_set : ∀ self l l', set (set self l) l' = set self l'

theorem AddsTo.addAll_eq (h : AddsTo get set clash add addAll) (self : B) (batch : List α) :
    addAll self batch =
      (set self ((get self).addEach batch).1, resultOf clash ((get self).addEach batch).2) := by
  induction batch generalizing self with
  | nil =>
    rw [h.addAll_nil, KeyedList.addEach, h.set_get]
    rfl
  | cons a batch ih =>
    rw [h.addAll_cons, h.add_eq]
    cases hadd : (get self).add a with
    | ok r =>
      have hsingle : (get self).addEach [a] = (r, none) := KeyedList.addEach_cons_of_ok hadd []
      rw [hsingle, KeyedList.addEach_cons_of_ok hadd]
      dsimp only [resultOf]
      rw [ih, h.get_set, h.set_set]
      rfl
    | error e =>
      rw [KeyedList.addEach_cons_of_error hadd, KeyedList.addEach_cons_of_error hadd]
      rfl

/-- **A call of such a builder** keeps the entries unique. -/
theorem AddsTo.addsUniquely (h : AddsTo get set clash add addAll) (self : B) :
    AddsUniquely key (fun self => (get self).values) add addAll self := by
  refine ⟨(get self).nodup, fun a ha => ?_, fun a e he => ?_, fun batch e he => ?_⟩
  · have heach : (get self).addEach [a] = (get self, none) :=
      KeyedList.addEach_cons_of_ok (KeyedList.add_of_mem ha) []
    rw [h.add_eq, heach, h.set_get]
    rfl
  · rw [h.add_eq] at he ⊢
    match hadd : (get self).add a with
    | .ok r =>
      rw [KeyedList.addEach_cons_of_ok hadd] at he
      cases he
    | .error e' =>
      rw [KeyedList.addEach_cons_of_error hadd]
      exact h.set_get self
  · rw [h.addAll_eq] at he ⊢
    match heach : (get self).addEach batch with
    | (r, none) =>
      rw [heach] at he
      cases he
    | (r, some clashing) =>
      rw [heach] at he
      obtain ⟨front, rest, rfl, hfront, hadd⟩ := KeyedList.addEach_eq_some heach
      obtain ⟨-, hmem, hkey, hne⟩ := KeyedList.add_eq_error_iff.mp hadd
      refine ⟨front, clashing.2, rest, rfl, ?_, ⟨clashing.1, ?_, hkey, hne⟩, ?_⟩
      · rw [h.addAll_eq, hfront]
        rfl
      · rw [h.get_set]
        exact hmem
      · rw [h.add_eq, h.get_set, KeyedList.addEach_cons_of_error hadd]
        exact he

/-- The entries after any calls. -/
theorem AddsTo.foldl_values (h : AddsTo get set clash add addAll) {self : B}
    (hself : get self = .empty) (batches : List (List α)) :
    (get (batches.foldl (fun self batch => (addAll self batch).1) self)).values =
      (KeyedList.accepted key batches).eraseDups := by
  have hfold : get (batches.foldl (fun self batch => (addAll self batch).1) self) =
      batches.foldl (fun l batch => (l.addEach batch).1) (get self) := by
    clear hself
    induction batches generalizing self with
    | nil => rfl
    | cons batch batches ih => rw [List.foldl_cons, ih, h.addAll_eq, h.get_set, List.foldl_cons]
  rw [hfold, hself]
  exact KeyedList.foldl_addEach_values batches

end Lens

namespace PodBuilder

theorem addsTo : AddsTo volumes (fun _ volumes => { volumes := volumes })
    (fun e => .volumeNameCollision e.2.name) addVolumeMut addVolumesMut where
  get_set _ _ := rfl
  set_get _ := rfl
  add_eq self volume := by
    rw [addVolumeMut]
    match hadd : self.volumes.add volume with
    | .ok r =>
      rw [KeyedList.addEach_cons_of_ok hadd]
      rfl
    | .error e =>
      rw [KeyedList.addEach_cons_of_error hadd]
      rfl
  addAll_nil _ := rfl
  addAll_cons self volume volumes := by
    rw [addVolumesMut]
    match self.addVolumeMut volume with
    | (_, .ok ()) => rfl
    | (_, .error _) => rfl
  set_set _ _ _ := rfl

theorem getD_volumes_buildSpec (self : PodBuilder) :
    self.buildSpec.volumes.getD [] = self.volumes.values := by
  rw [buildSpec]
  match self.volumes.values with
  | [] => rfl
  | _ :: _ => rfl

/-- The methods whose builder is lost when they fail agree with these. -/
theorem addVolumes_eq_ok_iff {self r : PodBuilder} {volumes : List Volume} :
    self.addVolumes volumes = .ok r ↔ self.addVolumesMut volumes = (r, .ok ()) := by
  rw [addVolumes, addsTo.addAll_eq]
  cases hadd : self.volumes.addAll volumes with
  | ok s =>
    rw [KeyedList.addEach_eq_none_iff.mpr hadd]
    simp [resultOf]
  | error e =>
    refine iff_of_false (by simp) fun h => ?_
    rcases heach : self.volumes.addEach volumes with ⟨s, error⟩
    cases error with
    | none =>
      exact absurd (hadd.symm.trans (KeyedList.addEach_eq_none_iff.mp heach)) (by simp)
    | some e' =>
      rw [heach] at h
      exact absurd (Prod.mk.inj h).2 (by simp [resultOf])

theorem call_eq (self : PodBuilder) (call : Call) :
    self.call call = (self.addVolumesMut call.batch).1 := by
  cases call with
  | addVolume volume =>
    rw [PodBuilder.call, addsTo.add_eq]
    exact (congrArg Prod.fst (addsTo.addAll_eq self [volume])).symm
  | addVolumes volumes => rfl

/-- The volumes after any calls. -/
theorem values_run (calls : List Call) : (run calls).volumes.values =
    (KeyedList.accepted Volume.name (calls.map Call.batch)).eraseDups := by
  have hrun : run calls = (calls.map Call.batch).foldl
      (fun self batch => (addVolumesMut self batch).1) new := by
    rw [run, List.foldl_map]
    exact congrArg (fun f => calls.foldl f new) (funext fun self => funext fun c => call_eq self c)
  rw [hrun]
  exact addsTo.foldl_values rfl (calls.map Call.batch)

end PodBuilder

namespace ContainerBuilder

theorem addsTo : AddsTo volumeMounts
    (fun self volumeMounts => { self with volumeMounts := volumeMounts })
    (fun e => .mountPathCollision e.2.mountPath e.1.name e.2.name) addVolumeMountImpl
    addVolumeMountsMut where
  get_set _ _ := rfl
  set_get _ := rfl
  add_eq self volumeMount := by
    rw [addVolumeMountImpl]
    match hadd : self.volumeMounts.add volumeMount with
    | .ok r =>
      rw [KeyedList.addEach_cons_of_ok hadd]
      rfl
    | .error e =>
      rw [KeyedList.addEach_cons_of_error hadd]
      rfl
  addAll_nil _ := rfl
  addAll_cons self volumeMount volumeMounts := by
    rw [addVolumeMountsMut]
    match self.addVolumeMountImpl volumeMount with
    | (_, .ok ()) => rfl
    | (_, .error _) => rfl
  set_set _ _ _ := rfl

theorem getD_volumeMounts_build (self : ContainerBuilder) :
    self.build.volumeMounts.getD [] = self.volumeMounts.values := by
  rw [build]
  match self.volumeMounts.values with
  | [] => rfl
  | _ :: _ => rfl

theorem call_eq (self : ContainerBuilder) (call : Call) :
    self.call call = (self.addVolumeMountsMut call.batch).1 := by
  cases call with
  | addVolumeMount name path =>
    rw [ContainerBuilder.call, addVolumeMountMut, addsTo.add_eq]
    exact (congrArg Prod.fst (addsTo.addAll_eq self [_])).symm
  | addVolumeMounts volumeMounts => rfl

/-- The mounts after any calls of a builder without mounts. -/
theorem values_run {self : ContainerBuilder} (hself : self.volumeMounts = .empty)
    (calls : List Call) : (self.run calls).volumeMounts.values =
      (KeyedList.accepted VolumeMount.mountPath (calls.map Call.batch)).eraseDups := by
  have hrun : self.run calls = (calls.map Call.batch).foldl
      (fun self batch => (addVolumeMountsMut self batch).1) self := by
    rw [run, List.foldl_map]
    exact congrArg (fun f => calls.foldl f self) (funext fun self => funext fun c => call_eq self c)
  rw [hrun]
  exact addsTo.foldl_values hself (calls.map Call.batch)

end ContainerBuilder

/-- **Pods have one volume for each name and containers one mount for each path**, after any
sequence of calls: the accepted ones, each at its first place. What one more call does is said by
`AddsUniquely`. -/
theorem builders_addUniquely (pod : List PodBuilder.Call) (name : String)
    (container : List ContainerBuilder.Call) :
    ((PodBuilder.run pod).buildSpec.volumes.getD [] =
        (KeyedList.accepted Volume.name (pod.map PodBuilder.Call.batch)).eraseDups ∧
      AddsUniquely Volume.name (fun self : PodBuilder => self.buildSpec.volumes.getD [])
        PodBuilder.addVolumeMut PodBuilder.addVolumesMut (PodBuilder.run pod)) ∧
    ∀ self, ContainerBuilder.new name = .ok self →
      (self.run container).build.volumeMounts.getD [] =
        (KeyedList.accepted VolumeMount.mountPath
          (container.map ContainerBuilder.Call.batch)).eraseDups ∧
      AddsUniquely VolumeMount.mountPath
        (fun self : ContainerBuilder => self.build.volumeMounts.getD [])
        ContainerBuilder.addVolumeMountImpl ContainerBuilder.addVolumeMountsMut
        (self.run container) := by
  refine ⟨⟨?_, ?_⟩, fun self hself => ⟨?_, ?_⟩⟩
  · rw [PodBuilder.getD_volumes_buildSpec]
    exact PodBuilder.values_run pod
  · simp only [PodBuilder.getD_volumes_buildSpec]
    exact PodBuilder.addsTo.addsUniquely (PodBuilder.run pod)
  · rw [ContainerBuilder.getD_volumeMounts_build]
    refine ContainerBuilder.values_run ?_ container
    exact KeyedList.ext (ContainerBuilder.volumeMounts_of_new hself)
  · simp only [ContainerBuilder.getD_volumeMounts_build]
    exact ContainerBuilder.addsTo.addsUniquely (self.run container)

/-- The container `app` mounts a path twice and fails to mount another volume there. -/
theorem builders_addUniquely_app :
    (ContainerBuilder.run { name := "app" } [.addVolumeMount "log" "/log",
        .addVolumeMount "log" "/log", .addVolumeMount "data" "/log"]).build.volumeMounts.getD [] =
      [{ name := "log", mountPath := "/log" }] := by
  have hnew : ContainerBuilder.new "app" = .ok { name := "app" } := rfl
  have hmounts := ((builders_addUniquely [] "app" [.addVolumeMount "log" "/log",
    .addVolumeMount "log" "/log", .addVolumeMount "data" "/log"]).2 _ hnew).1
  exact hmounts.trans (by decide +kernel)

end StackableOperator
