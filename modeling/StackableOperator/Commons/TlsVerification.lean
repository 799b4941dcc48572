import Mathlib
import StackableOperator.Builder.Pod.Builder
import StackableOperator.Commons.SecretClass

/-!
# TLS connections of clients

The CA certificate that verifies the server of a TLS connection may come from a SecretClass. Its
volume is mounted below the directory of all secrets.
-/

namespace StackableOperator

def secretBasePath : String := "/stackable/secrets"

/-- The directory where the secrets of a SecretClass are mounted. -/
def secretMountPath (secretClass : String) : String := secretBasePath ++ "/" ++ secretClass

inductive CaCert : Type
  /-- The CA certificates that web browsers trust. -/
  | webPki
  | secretClass (secretClass : String)
  deriving DecidableEq

structure TlsServerVerification where
  caCert : CaCert
  deriving DecidableEq

inductive TlsVerification : Type
  /-- TLS without verification. -/
  | none
  | server (verification : TlsServerVerification)
  deriving DecidableEq

structure Tls where
  verification : TlsVerification
  deriving DecidableEq

structure TlsClientDetails where
  tls : Option Tls
  deriving DecidableEq

namespace TlsClientDetails

inductive Error : Type
  | secretClassVolume (source : SecretClassVolume.Error)

/-- The SecretClass of the CA certificate. -/
def tlsCaCertSecretClass (self : TlsClientDetails) : Option String :=
  match self.tls with
  | some ⟨.server ⟨.secretClass secretClass⟩⟩ => some secretClass
  | _ => none

/-- Whether TLS is configured. -/
def usesTls (self : TlsClientDetails) : Bool := self.tls.isSome

def tlsCaCertMountPath (self : TlsClientDetails) : Option String :=
  self.tlsCaCertSecretClass.map fun secretClass => secretMountPath secretClass ++ "/ca.crt"

def volumesAndMounts (self : TlsClientDetails) :
    Except Error (List Volume × List VolumeMount) :=
  match self.tlsCaCertSecretClass with
  | some secretClass =>
    let volumeName := secretClass ++ "-ca-cert"
    match (SecretClassVolume.mk secretClass none).toVolume volumeName .public with
    | .error source => .error (.secretClassVolume source)
    | .ok volume =>
      .ok ([volume], [(VolumeMountBuilder.new volumeName (secretMountPath secretClass)).build])
  | none => .ok ([], [])

end TlsClientDetails

/-! ### Volumes of a SecretClass -/

/-- The volume is built, under the given name. -/
theorem SecretClassVolume.exists_toVolume (self : SecretClassVolume) (volumeName : String)
    (provisionParts : SecretClassVolumeProvisionParts) :
    ∃ volume, self.toVolume volumeName provisionParts = .ok volume ∧ volume.name = volumeName := by
  obtain ⟨source, hsource, -⟩ := self.exists_toEphemeralVolumeSource provisionParts
  refine ⟨_, by rw [toVolume, hsource], ?_⟩
  rw [VolumeBuilder.build_name]
  rfl

/-- The CA certificate has one volume and one mount. -/
theorem TlsClientDetails.exists_volumesAndMounts (self : TlsClientDetails) :
    ∃ volumes mounts, self.volumesAndMounts = .ok (volumes, mounts) ∧
      volumes.map Volume.name = self.tlsCaCertSecretClass.toList.map (· ++ "-ca-cert") ∧
      mounts.map VolumeMount.name = self.tlsCaCertSecretClass.toList.map (· ++ "-ca-cert") ∧
      mounts.map VolumeMount.mountPath = self.tlsCaCertSecretClass.toList.map secretMountPath := by
  match hclass : self.tlsCaCertSecretClass with
  | none => exact ⟨[], [], by rw [volumesAndMounts, hclass], rfl, rfl, rfl⟩
  | some secretClass =>
    obtain ⟨volume, hvolume, hname⟩ := (SecretClassVolume.mk secretClass none).exists_toVolume
      (secretClass ++ "-ca-cert") .public
    refine ⟨[volume], [_], by simp only [volumesAndMounts, hclass, hvolume]; rfl, ?_, rfl, rfl⟩
    simp [hname]

/-! ### Credentials with a TLS connection -/

/-- The volume and the mount of the credentials of a connection. -/
def credentialsVolumesAndMounts (credentials : Option SecretClassVolume) (suffix : String) :
    Except SecretClassVolume.Error (List Volume × List VolumeMount) :=
  match credentials with
  | some credentials =>
    let secretClass := credentials.secretClass
    let volumeName := secretClass ++ suffix
    match credentials.toVolume volumeName .publicPrivate with
    | .error source => .error source
    | .ok volume =>
      .ok ([volume], [(VolumeMountBuilder.new volumeName (secretMountPath secretClass)).build])
  | none => .ok ([], [])

theorem exists_credentialsVolumesAndMounts (credentials : Option SecretClassVolume)
    (suffix : String) :
    ∃ volumes mounts, credentialsVolumesAndMounts credentials suffix = .ok (volumes, mounts) ∧
      volumes.map Volume.name =
        (credentials.map SecretClassVolume.secretClass).toList.map (· ++ suffix) ∧
      mounts.map VolumeMount.name =
        (credentials.map SecretClassVolume.secretClass).toList.map (· ++ suffix) ∧
      mounts.map VolumeMount.mountPath =
        (credentials.map SecretClassVolume.secretClass).toList.map secretMountPath := by
  match credentials with
  | none => exact ⟨[], [], rfl, rfl, rfl, rfl⟩
  | some credentials =>
    obtain ⟨volume, hvolume, hname⟩ :=
      credentials.exists_toVolume (credentials.secretClass ++ suffix) .publicPrivate
    refine ⟨[volume], [_], by simp only [credentialsVolumesAndMounts, hvolume]; rfl, ?_, rfl, rfl⟩
    simp [hname]

theorem secretMountPath_injective : Function.Injective secretMountPath := by
  intro a b h
  have hlist := congrArg String.toList h
  simp only [secretMountPath, String.toList_append] at hlist
  exact String.toList_inj.mp (List.append_cancel_left hlist)

/-- Texts with different last characters are different. -/
theorem append_ne_append {s t suffix : String} {c : Char} (hc : suffix.toList.getLast? = some c)
    (hne : c ≠ 't') : s ++ suffix ≠ t ++ "-ca-cert" := by
  intro h
  have hlast := congrArg (fun s : String => s.toList.getLast?) h
  simp only [String.toList_append, List.getLast?_append, hc] at hlast
  exact hne (Option.some.inj (hlast.trans (by simp)))

/-- The secrets of the credentials and the CA certificate come from the same SecretClass. -/
def SharesSecretClass (credentials : Option SecretClassVolume) (tls : TlsClientDetails) : Prop :=
  ∃ secretClass, credentials.map SecretClassVolume.secretClass = some secretClass ∧
    tls.tlsCaCertSecretClass = some secretClass

/-- Two values of options are different unless both have the same value. -/
theorem nodup_toList_append {α : Type} {x y : Option α} :
    (x.toList ++ y.toList).Nodup ↔ ¬∃ a, x = some a ∧ y = some a := by
  match x, y with
  | none, none => simp
  | none, some b => simp
  | some a, none => simp
  | some a, some b => simp [eq_comm]

/-- **Volumes of credentials and of a CA certificate** clash iff both come from the same
SecretClass. -/
theorem clashFree_append_iff {credentials : Option SecretClassVolume} {suffix : String}
    {tls : TlsClientDetails} {c : Char} (hc : suffix.toList.getLast? = some c) (hne : c ≠ 't')
    {volumes tlsVolumes : List Volume} {mounts tlsMounts : List VolumeMount}
    (hcredentials : credentialsVolumesAndMounts credentials suffix = .ok (volumes, mounts))
    (htls : tls.volumesAndMounts = .ok (tlsVolumes, tlsMounts)) :
    ClashFree (volumes ++ tlsVolumes) (mounts ++ tlsMounts) ↔
      ¬SharesSecretClass credentials tls := by
  obtain ⟨_, _, hok, hvolumes, hmounts, hpaths⟩ :=
    exists_credentialsVolumesAndMounts credentials suffix
  obtain ⟨rfl, rfl⟩ := Prod.mk.inj (Except.ok.inj (hcredentials.symm.trans hok))
  obtain ⟨_, _, hok', htlsVolumes, htlsMounts, htlsPaths⟩ := tls.exists_volumesAndMounts
  obtain ⟨rfl, rfl⟩ := Prod.mk.inj (Except.ok.inj (htls.symm.trans hok'))
  have hnodup : ((volumes ++ tlsVolumes).map Volume.name).Nodup := by
    rw [List.map_append, hvolumes, htlsVolumes, ← Option.toList_map, ← Option.toList_map,
      nodup_toList_append]
    rintro ⟨name, hname, hname'⟩
    obtain ⟨s, -, rfl⟩ := Option.map_eq_some_iff.mp hname
    obtain ⟨t, -, ht⟩ := Option.map_eq_some_iff.mp hname'
    exact append_ne_append hc hne ht.symm
  have hiff : ((mounts ++ tlsMounts).map VolumeMount.mountPath).Nodup ↔
      ¬SharesSecretClass credentials tls := by
    rw [List.map_append, hpaths, htlsPaths, ← List.map_append,
      List.nodup_map_iff secretMountPath_injective, nodup_toList_append]
    rfl
  constructor
  · intro h
    exact hiff.mp h.paths
  · intro h
    refine ⟨hnodup, hiff.mpr h, fun mount hmount => ?_⟩
    have hname := List.mem_map_of_mem (f := VolumeMount.name) hmount
    rw [List.map_append, hmounts, htlsMounts, ← hvolumes, ← htlsVolumes] at hname
    rwa [List.map_append]

end StackableOperator
