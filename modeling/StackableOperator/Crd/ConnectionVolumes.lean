import Mathlib
import StackableOperator.Crd.Authentication.Ldap
import StackableOperator.Crd.S3.Connection

/-!
# Volumes of connections

Connections to LDAP and to S3 mount credentials and a CA certificate at paths that are made of the
names of their SecretClasses. `connections_fit_iff` says that these mounts fit together unless both
SecretClasses are the same.
-/

namespace StackableOperator

/-- The volumes and mounts exist without clashes. They are added to a new pod and new containers,
and when they are added again, nothing changes. -/
def FitsTogether {E : Type} (volumesAndMounts : Except E (List Volume × List VolumeMount))
    (add : PodBuilder → List ContainerBuilder → Except E (PodBuilder × List ContainerBuilder)) :
    Prop :=
  (∃ volumes mounts, volumesAndMounts = .ok (volumes, mounts) ∧ ClashFree volumes mounts) ∧
    ∀ containerBuilders : List ContainerBuilder,
      (∀ cb ∈ containerBuilders, ∃ name, ContainerBuilder.new name = .ok cb) →
        ∃ result, add .new containerBuilders = .ok result ∧ add result.1 result.2 = .ok result

theorem new_fresh {containerBuilders : List ContainerBuilder}
    (h : ∀ cb ∈ containerBuilders, ∃ name, ContainerBuilder.new name = .ok cb) :
    ∀ cb ∈ containerBuilders, cb.volumeMounts.values = [] := by
  intro cb hcb
  obtain ⟨name, hname⟩ := h cb hcb
  exact ContainerBuilder.volumeMounts_of_new hname

/-- Whether everything fits together is decided by the volumes and mounts. -/
theorem fitsTogether_iff_clashFree {E : Type}
    {volumesAndMounts : Except E (List Volume × List VolumeMount)}
    {add : PodBuilder → List ContainerBuilder → Except E (PodBuilder × List ContainerBuilder)}
    {volumes : List Volume} {mounts : List VolumeMount}
    (hok : volumesAndMounts = .ok (volumes, mounts))
    (hadd : ∀ podBuilder containerBuilders result,
      addVolumesAndMounts volumes mounts podBuilder containerBuilders = .ok result →
        add podBuilder containerBuilders = .ok result) :
    FitsTogether volumesAndMounts add ↔ ClashFree volumes mounts := by
  constructor
  · rintro ⟨⟨_, _, hok', hclash⟩, -⟩
    obtain ⟨rfl, rfl⟩ := Prod.mk.inj (Except.ok.inj (hok.symm.trans hok'))
    exact hclash
  · intro hclash
    refine ⟨⟨volumes, mounts, hok, hclash⟩, fun containerBuilders hnew => ?_⟩
    obtain ⟨result, hfirst, hagain⟩ := hclash.addVolumesAndMounts_of_fresh (new_fresh hnew)
    exact ⟨result, hadd _ _ _ hfirst, hadd _ _ _ hagain⟩

/-- The volumes of a connection are those of its credentials, and after them those of its TLS
settings. They fit together unless both are from one SecretClass. -/
theorem fitsTogether_credentials_iff {E : Type} {credentials : Option SecretClassVolume}
    (suffix : String) {tls : TlsClientDetails} {c : Char}
    (hc : suffix.toList.getLast? = some c) (hne : c ≠ 't')
    {volumesAndMounts : Except E (List Volume × List VolumeMount)}
    {add : PodBuilder → List ContainerBuilder → Except E (PodBuilder × List ContainerBuilder)}
    (hok : ∀ volumes mounts tlsVolumes tlsMounts,
      credentialsVolumesAndMounts credentials suffix = .ok (volumes, mounts) →
        tls.volumesAndMounts = .ok (tlsVolumes, tlsMounts) →
          volumesAndMounts = .ok (volumes ++ tlsVolumes, mounts ++ tlsMounts))
    (hadd : ∀ volumes mounts podBuilder containerBuilders result,
      volumesAndMounts = .ok (volumes, mounts) →
        addVolumesAndMounts volumes mounts podBuilder containerBuilders = .ok result →
          add podBuilder containerBuilders = .ok result) :
    FitsTogether volumesAndMounts add ↔ ¬SharesSecretClass credentials tls := by
  obtain ⟨volumes, mounts, hcredentials, -⟩ :=
    exists_credentialsVolumesAndMounts credentials suffix
  obtain ⟨tlsVolumes, tlsMounts, htls, -⟩ := tls.exists_volumesAndMounts
  have hok := hok _ _ _ _ hcredentials htls
  rw [← clashFree_append_iff hc hne hcredentials htls]
  exact fitsTogether_iff_clashFree hok fun _ _ _ => hadd _ _ _ _ _ hok

theorem Ldap.AuthenticationProvider.fitsTogether_iff (self : Ldap.AuthenticationProvider) :
    FitsTogether self.volumesAndMounts self.addVolumesAndMounts ↔
      ¬SharesSecretClass self.bindCredentials self.tls := by
  refine fitsTogether_credentials_iff "-bind-credentials" (c := 's') (by simp) (by decide)
    (fun _ _ _ _ hcredentials htls => ?_) fun _ _ _ _ _ hok hadd => ?_
  · rw [volumesAndMounts, hcredentials]
    simp only [htls]
  · rw [addVolumesAndMounts, hok]
    simp only [hadd]

theorem S3.ConnectionSpec.fitsTogether_iff (self : S3.ConnectionSpec) :
    FitsTogether self.volumesAndMounts self.addVolumesAndMounts ↔
      ¬SharesSecretClass self.credentials self.tls := by
  refine fitsTogether_credentials_iff "-s3-credentials" (c := 's') (by simp) (by decide)
    (fun _ _ _ _ hcredentials htls => ?_) fun _ _ _ _ _ hok hadd => ?_
  · rw [volumesAndMounts, hcredentials]
    simp only [htls]
  · rw [addVolumesAndMounts, hok]
    simp only [hadd]

/-- **Volumes of connections** fit together iff the credentials and the CA certificate do not come
from the same SecretClass. -/
theorem connections_fit_iff (ldap : Ldap.AuthenticationProvider) (s3 : S3.ConnectionSpec) :
    (FitsTogether ldap.volumesAndMounts ldap.addVolumesAndMounts ↔
      ¬SharesSecretClass ldap.bindCredentials ldap.tls) ∧
    (FitsTogether s3.volumesAndMounts s3.addVolumesAndMounts ↔
      ¬SharesSecretClass s3.credentials s3.tls) :=
  ⟨ldap.fitsTogether_iff, s3.fitsTogether_iff⟩

/-- One SecretClass for the bind credentials and for the CA certificate. -/
theorem connections_clash_ldap : ¬∀ (ldap : Ldap.AuthenticationProvider) (s3 : S3.ConnectionSpec),
    FitsTogether ldap.volumesAndMounts ldap.addVolumesAndMounts ∧
      FitsTogether s3.volumesAndMounts s3.addVolumesAndMounts := by
  intro h
  let hostname : HostName := .ipAddress (.v4 ⟨[127, 0, 0, 1], rfl⟩)
  let ldap : Ldap.AuthenticationProvider :=
    { hostname := hostname
      bindCredentials := some ⟨"ldap", none⟩
      tls := ⟨some ⟨.server ⟨.secretClass "ldap"⟩⟩⟩ }
  obtain ⟨hfits, -⟩ := h ldap { host := hostname, tls := ⟨none⟩ }
  exact ldap.fitsTogether_iff.mp hfits ⟨"ldap", rfl, rfl⟩

end StackableOperator
