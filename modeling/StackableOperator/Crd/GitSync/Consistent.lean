import Mathlib
import StackableOperator.Crd.GitSync.CaInfos

/-!
# Consistency of the resources of git-sync

`GitSyncResources.new_consistent` says that the resources that are generated for a list of
specifications fit together: names are different, mounts have volumes, the used paths are mounted,
and extra environment variables win.
-/

namespace StackableOperator

namespace GitSyncResources

open V2

/-! ### Names with an index -/

theorem indexed_injective (namePrefix : String) : Function.Injective (indexed namePrefix) := by
  intro i j h
  have hlist := congrArg String.toList h
  simp only [indexed, String.toList_append] at hlist
  exact Nat.repr_injective (String.toList_inj.mp (List.append_cancel_left hlist))

/-- A name with an index ends with a digit. -/
theorem indexed_ne_append_init (namePrefix : String) (i j : ℕ) :
    indexed namePrefix i ≠ indexed namePrefix j ++ "-init" := by
  intro h
  have hlist := congrArg String.toList h
  simp only [indexed, String.toList_append, List.append_assoc] at hlist
  have hindex := List.append_cancel_left (List.append_cancel_left hlist)
  have hmem : '-' ∈ (toString i).toList := by
    rw [hindex]
    simp
  rw [Nat.toString_eq_repr, Nat.toList_repr] at hmem
  have hdigit := Nat.isDigit_of_mem_toDigits (by omega) (by omega) hmem
  exact absurd hdigit (by decide)

/-- Names with an index are different if their second characters are. -/
theorem indexed_ne_indexed {namePrefix namePrefix' : String} {c c' d d' : Char}
    {rest rest' : List Char} (h : namePrefix.toList = c :: d :: rest)
    (h' : namePrefix'.toList = c' :: d' :: rest') (hne : d ≠ d') (i j : ℕ) :
    indexed namePrefix i ≠ indexed namePrefix' j := by
  intro heq
  have hlist := congrArg String.toList heq
  simp only [indexed, String.toList_append, h, h', List.cons_append, List.cons.injEq] at hlist
  exact hne hlist.2.1

/-- The names of a list of specifications. -/
theorem nodup_map_indexed {α : Type} (l : List α) {f : ℕ → String} (hf : Function.Injective f) :
    (l.zipIdx.map fun spec => f spec.2).Nodup := by
  have hsnd : (l.zipIdx.map Prod.snd).Nodup := by
    rw [List.zipIdx_map_snd]
    exact List.nodup_range'
  have hmap := hsnd.map hf
  rwa [List.map_map] at hmap

/-! ### The parts of one specification -/

theorem name_of_caCertVolume_eq_ok {i : ℕ} {gitSync : GitSync} {volume : Option Volume}
    (h : caCertVolume i gitSync = .ok volume) :
    volume.map Volume.name =
      gitSync.tls.tlsCaCertSecretClass.map fun _ => indexed caCertVolumeNamePrefix i := by
  unfold caCertVolume at h
  match hclass : gitSync.tls.tlsCaCertSecretClass with
  | none =>
    rw [hclass] at h
    rw [← Except.ok.inj h]
    rfl
  | some secretClass =>
    obtain ⟨caCert, hcaCert, hname⟩ := (SecretClassVolume.mk secretClass none).exists_toVolume
      (indexed caCertVolumeNamePrefix i) .public
    simp only [hclass, hcaCert] at h
    rw [← Except.ok.inj h, Option.map_some, Option.map_some, hname]

theorem name_sshVolume (i : ℕ) (gitSync : GitSync) :
    ∀ volume ∈ sshVolume i gitSync, volume.name = indexed sshVolumeNamePrefix i := by
  intro volume hvolume
  unfold sshVolume at hvolume
  split at hvolume
  · rw [← Option.some.inj hvolume, VolumeBuilder.build_name]
    rfl
  · exact absurd hvolume (by simp)

/-- An SSH key has a mount. -/
theorem exists_mem_sshVolumeMounts {i : ℕ} {gitSync : GitSync} (h : UsesSsh gitSync) :
    ∃ mount ∈ sshVolumeMounts i gitSync, mount.mountPath = indexed sshMountPathPrefix i := by
  obtain ⟨secretName, hcredentials⟩ := h
  rw [sshVolumeMounts, hcredentials]
  exact ⟨_, List.mem_singleton_self _, rfl⟩

/-- A mount of an SSH key has a volume. -/
theorem exists_sshVolume_of_mem {i : ℕ} {gitSync : GitSync} {mount : VolumeMount}
    (h : mount ∈ sshVolumeMounts i gitSync) :
    ∃ volume, sshVolume i gitSync = some volume ∧ mount.name = volume.name := by
  unfold sshVolumeMounts at h
  split at h
  · next secretName hcredentials =>
    refine ⟨_, by rw [sshVolume, hcredentials], ?_⟩
    rw [List.mem_singleton.mp h, VolumeBuilder.build_name]
    rfl
  · exact absurd h List.not_mem_nil

/-- A CA certificate from a SecretClass has a mount. -/
theorem exists_mem_caCertVolumeMounts {i : ℕ} {gitSync : GitSync}
    (h : gitSync.tls.tlsCaCertSecretClass.isSome = true) :
    ∃ mount ∈ caCertVolumeMounts i gitSync, mount.mountPath = indexed caCertMountPathPrefix i := by
  obtain ⟨secretClass, hclass⟩ := Option.isSome_iff_exists.mp h
  rw [caCertVolumeMounts, hclass]
  exact ⟨_, List.mem_singleton_self _, rfl⟩

/-- A CA certificate from a SecretClass has a path, unless the scheme does not fit. -/
theorem exists_caCertPath_of_isSome {i : ℕ} {gitSync : GitSync} {path : Option String}
    (h : caCertPath i gitSync = .ok path)
    (hclass : gitSync.tls.tlsCaCertSecretClass.isSome = true) :
    ∃ caInfo, path = some caInfo := by
  unfold TlsClientDetails.tlsCaCertSecretClass at hclass
  unfold caCertPath at h
  dsimp only at h
  split at hclass
  · next htls =>
    rw [htls] at h
    dsimp only at h
    split_ifs at h
    exact ⟨_, (Except.ok.inj h).symm⟩
  · cases hclass

/-- A mount of a CA certificate has a volume. -/
theorem exists_caCertVolume_of_mem {i : ℕ} {gitSync : GitSync} {mount : VolumeMount}
    (h : mount ∈ caCertVolumeMounts i gitSync) {volume : Option Volume}
    (hvolume : caCertVolume i gitSync = .ok volume) :
    ∃ v, volume = some v ∧ mount.name = v.name := by
  have hname := name_of_caCertVolume_eq_ok hvolume
  unfold caCertVolumeMounts at h
  match hclass : gitSync.tls.tlsCaCertSecretClass with
  | none =>
    rw [hclass] at h
    exact absurd h List.not_mem_nil
  | some secretClass =>
    rw [hclass] at h hname
    obtain ⟨v, hv, hvname⟩ := Option.map_eq_some_iff.mp hname
    refine ⟨v, hv, ?_⟩
    rw [hvname, List.mem_singleton.mp h]
    rfl

/-! ### What is generated for one specification -/

section Generate

variable {resolvedProductImage : ResolvedProductImage} {extraEnvVars : List EnvVar}
  {extraVolumeMounts : List VolumeMount} {logVolumeName : String}
  {containerLogConfig : ContainerLogConfig} {gitSync : GitSync} {i : ℕ} {generated : Generated}

/-- The container for the one-time or the regular synchronization. -/
def Generated.containerFor (generated : Generated) (oneTime : Bool) : Container :=
  if oneTime then generated.initContainer else generated.container

def containerNameFor (i : ℕ) (oneTime : Bool) : String :=
  if oneTime then indexed containerNamePrefix i ++ "-init" else indexed containerNamePrefix i

theorem notMem_containerNameFor (i : ℕ) (oneTime : Bool) :
    'A' ∉ (containerNameFor i oneTime).toList := by
  have hprefix : 'A' ∉ (containerNamePrefix ++ "-").toList := by decide
  have hdigits : 'A' ∉ (toString i).toList := fun hmem =>
    absurd (isDigit_of_mem_toString_nat hmem) (by decide)
  cases oneTime <;> simp_all [containerNameFor, indexed, String.toList_append]

/-- The steps of a successful generation. -/
theorem generate_eq_ok (h : generate resolvedProductImage extraEnvVars extraVolumeMounts
      logVolumeName containerLogConfig gitSync i = .ok generated) :
    ∃ credentials envVars path,
      credentialsEnvVars i gitSync = .ok credentials ∧
      withExtraEnvVars credentials extraEnvVars = .ok envVars ∧
      caCertPath i gitSync = .ok path ∧
      (∀ oneTime, createGitSyncContainer (containerNameFor i oneTime) resolvedProductImage gitSync
        oneTime envVars (containerVolumeMounts i gitSync extraVolumeMounts logVolumeName)
        containerLogConfig path = .ok (generated.containerFor oneTime)) ∧
      generated.contentVolume.name = indexed volumeNamePrefix i ∧
      generated.sshVolume = sshVolume i gitSync ∧
      caCertVolume i gitSync = .ok generated.caCertVolume := by
  obtain ⟨credentials, hcredentials, h₁⟩ := bind_eq_ok.mp h
  obtain ⟨envVars, henvVars, h₂⟩ := bind_eq_ok.mp h₁
  obtain ⟨path, hpath, h₃⟩ := bind_eq_ok.mp h₂
  obtain ⟨container, hcontainer, h₄⟩ := bind_eq_ok.mp h₃
  obtain ⟨initContainer, hinitContainer, h₅⟩ := bind_eq_ok.mp h₄
  obtain ⟨volume, hvolume, h₆⟩ := bind_eq_ok.mp h₅
  rw [← Except.ok.inj h₆]
  refine ⟨credentials, envVars, path, hcredentials, henvVars, hpath, ?_, ?_, rfl, hvolume⟩
  · rintro (_ | _)
    · exact hcontainer
    · exact hinitContainer
  · exact VolumeBuilder.build_name _

/-- What the container of one specification needs: its mounts are named after volumes, the log
volume or extra mounts, and the CA certificate and the SSH files that it uses are mounted. -/
structure ContainerFits (volumes : List Volume) (extraEnvVars : List EnvVar)
    (extraVolumeMounts : List VolumeMount) (logVolumeName : String) (gitSync : GitSync)
    (container : Container) : Prop where
  mounts_named : ∀ mount ∈ container.mounts, mount.name ∈ volumes.map Volume.name ∨
    mount.name = logVolumeName ∨ mount ∈ extraVolumeMounts
  mountPaths_nodup : (container.mounts.map VolumeMount.mountPath).Nodup
  envVarNames_nodup : (container.envVars.map EnvVar.name).Nodup
  /-- Each path of a CA certificate in the script is mounted, or comes from a text of the user. -/
  caCert_mounted : ∀ script ∈ container.args.getD [], ∀ caInfo ∈ caInfos script.toList,
    (∃ mount ∈ container.mounts, IsBelow caInfo mount.mountPath) ∨ IsNamedByUser gitSync caInfo
  /-- A CA certificate from a SecretClass is used, and mounted. -/
  caCert_used : gitSync.tls.tlsCaCertSecretClass.isSome = true →
    ∃ script ∈ container.args.getD [], ∃ caInfo ∈ caInfos script.toList,
      ∃ mount ∈ container.mounts, IsBelow caInfo mount.mountPath
  ssh_mounted : ∀ envVar ∈ container.envVars, envVar ∉ extraEnvVars →
    ∀ value, envVar.value = some value → ∃ mount ∈ container.mounts, IsBelow value mount.mountPath
  ssh_used : UsesSsh gitSync → ∀ name ∈ sshEnvVarNames, name ∈ container.envVars.map EnvVar.name
  /-- The last extra variable with a name is the only variable with this name. -/
  extra_wins : ∀ extra,
    extraEnvVars.reverse.find? (fun e => e.name = extra.name) = some extra →
      ∀ envVar, envVar ∈ container.envVars ∧ envVar.name = extra.name ↔ envVar = extra

theorem mem_envVars_iff {container : Container} {envVars : EnvVarSet}
    (h : container.envVars = envVars.toVec) {envVar : EnvVar} :
    envVar ∈ container.envVars ↔ ∃ name, envVars.get name = some envVar := by
  rw [h, envVars.perm_toVec.mem_iff, EnvVarSet.mem_values_iff]

theorem mem_containerVolumeMounts_iff {mount : VolumeMount} :
    mount ∈ containerVolumeMounts i gitSync extraVolumeMounts logVolumeName ↔
      mount = { name := indexed volumeNamePrefix i, mountPath := gitSyncRootDir } ∨
      mount = { name := logVolumeName, mountPath := logVolumeMountPath } ∨
      mount ∈ extraVolumeMounts ∨ mount ∈ sshVolumeMounts i gitSync ∨
      mount ∈ caCertVolumeMounts i gitSync := by
  simp [containerVolumeMounts]

/-- A variable of an SSH key has a valid name. -/
theorem exists_envVarName {name : String} (h : name ∈ sshEnvVarNames) :
    ∃ envVarName : EnvVarName, envVarName.1 = name := by
  simp only [sshEnvVarNames, List.mem_cons, List.not_mem_nil, or_false] at h
  obtain rfl | rfl := h
  · exact ⟨⟨"GITSYNC_SSH_KEY_FILE", by decide⟩, rfl⟩
  · exact ⟨⟨"GITSYNC_SSH_KNOWN_HOSTS_FILE", by decide⟩, rfl⟩

/-- The container of one specification has what it needs. -/
theorem containerFits_of_generate_eq_ok
    (h : generate resolvedProductImage extraEnvVars extraVolumeMounts logVolumeName
      containerLogConfig gitSync i = .ok generated) {volumes : List Volume}
    (hvolumes : ∀ volume, volume = generated.contentVolume ∨ generated.sshVolume = some volume ∨
      generated.caCertVolume = some volume → volume ∈ volumes) (oneTime : Bool) :
    ContainerFits volumes extraEnvVars extraVolumeMounts logVolumeName gitSync
      (generated.containerFor oneTime) := by
  obtain ⟨credentials, envVars, path, hcredentials, hextra, hpath, hcontainer, hcontent, hssh,
    hcaCert⟩ := generate_eq_ok h
  obtain ⟨hname, hargs, henv, hmounts, hpaths⟩ := createGitSyncContainer_eq_ok (hcontainer oneTime)
  have hget := get_of_withExtraEnvVars_eq_ok hextra
  have hnamed {mount : VolumeMount} {volume : Volume} (hmem : volume ∈ volumes)
      (heq : mount.name = volume.name) : mount.name ∈ volumes.map Volume.name :=
    heq ▸ List.mem_map_of_mem hmem
  have hmem {mount : VolumeMount} := (hmounts mount).trans mem_containerVolumeMounts_iff
  have hmounted {caInfo : String} (hcaInfo : path = some caInfo) :
      ∃ mount ∈ (generated.containerFor oneTime).mounts, IsBelow caInfo mount.mountPath := by
    obtain ⟨hclass, rfl⟩ := eq_of_caCertPath_eq_ok (hcaInfo ▸ hpath)
    obtain ⟨mount, hmount, hmountPath⟩ := exists_mem_caCertVolumeMounts (i := i) hclass
    exact ⟨mount, hmem.mpr (by simp [hmount]),
      hmountPath ▸ isBelow_append "ca.crt" (by decide)⟩
  have hread (caInfo : String) :
      (caInfo ∈ caInfos (gitSyncCommand gitSync oneTime path).toList →
        path = some caInfo ∨ IsNamedByUser gitSync caInfo) ∧
      (path = some caInfo → caInfo ∈ caInfos (gitSyncCommand gitSync oneTime path).toList) :=
    mem_caInfos_gitSyncCommand hpath oneTime
  have hscript : caInfos (createGitSyncShellScript (containerNameFor i oneTime) gitSync oneTime
      containerLogConfig path).toList = caInfos (gitSyncCommand gitSync oneTime path).toList :=
    caInfos_createGitSyncShellScript (notMem_containerNameFor i oneTime) oneTime containerLogConfig
  refine ⟨fun mount hmount => ?_, hpaths, ?_, ?_, fun hclass => ?_, ?_, ?_, ?_⟩
  · obtain rfl | rfl | hextraMount | hsshMount | hcaCertMount := hmem.mp hmount
    · exact Or.inl (hnamed (hvolumes _ (Or.inl rfl)) hcontent.symm)
    · exact Or.inr (Or.inl rfl)
    · exact Or.inr (Or.inr hextraMount)
    · obtain ⟨volume, hvolume, heq⟩ := exists_sshVolume_of_mem hsshMount
      exact Or.inl (hnamed (hvolumes volume (Or.inr (Or.inl (hssh.trans hvolume)))) heq)
    · obtain ⟨volume, hvolume, heq⟩ := exists_caCertVolume_of_mem hcaCertMount hcaCert
      exact Or.inl (hnamed (hvolumes volume (Or.inr (Or.inr hvolume))) heq)
  · rw [henv]
    exact (envVars.perm_toVec.map EnvVar.name).nodup_iff.mpr envVars.nodup_map_name_values
  · intro script hargsMem caInfo hcaInfo
    rw [hargs, Option.getD_some, List.mem_singleton] at hargsMem
    rw [hargsMem, hscript] at hcaInfo
    exact ((hread caInfo).1 hcaInfo).imp_left hmounted
  · obtain ⟨caInfo, hsome⟩ := exists_caCertPath_of_isSome hpath hclass
    refine ⟨_, by rw [hargs]; exact List.mem_singleton_self _, caInfo, ?_, hmounted hsome⟩
    rw [hscript]
    exact (hread caInfo).2 hsome
  · intro envVar henvVar hnotExtra value hvalue
    obtain ⟨name, hgetName⟩ := (mem_envVars_iff henv).mp henvVar
    rw [hget, Option.or_eq_some_iff] at hgetName
    obtain hfind | ⟨-, hgetName⟩ := hgetName
    · exact absurd (List.mem_reverse.mp (List.mem_of_find?_eq_some hfind)) hnotExtra
    · obtain ⟨huses, hbelow⟩ := isBelow_of_credentialsEnvVars_eq_ok hcredentials hgetName hvalue
      obtain ⟨mount, hmount, hmountPath⟩ := exists_mem_sshVolumeMounts (i := i) huses
      exact ⟨mount, hmem.mpr (by simp [hmount]), hmountPath ▸ hbelow⟩
  · intro huses name hnameMem
    obtain ⟨envVarName, rfl⟩ := exists_envVarName hnameMem
    obtain ⟨envVar, hcredential⟩ :=
      Option.isSome_iff_exists.mp (isSome_get_of_usesSsh hcredentials huses hnameMem)
    have hsome : (envVars.get envVarName).isSome = true := by
      rw [hget, Option.isSome_or, hcredential, Option.isSome_some, Bool.or_true]
    obtain ⟨envVar', hgetName⟩ := Option.isSome_iff_exists.mp hsome
    rw [← envVars.name_eq envVarName envVar' hgetName]
    exact List.mem_map_of_mem ((mem_envVars_iff henv).mpr ⟨envVarName, hgetName⟩)
  · -- extra variables are added last
    intro extra hlast envVar
    obtain ⟨name, hname⟩ := exists_name_of_withExtraEnvVars_eq_ok hextra
      (List.mem_reverse.mp (List.mem_of_find?_eq_some hlast))
    have hgetExtra : envVars.get name = some extra := by
      rw [hget, hname, hlast, Option.some_or]
    have hmemExtra := (mem_envVars_iff henv).mpr ⟨name, hgetExtra⟩
    rw [henv, envVars.perm_toVec.mem_iff] at hmemExtra ⊢
    constructor
    · rintro ⟨henvVar, heq⟩
      exact EnvVarSet.eq_of_name_eq henvVar hmemExtra heq
    · rintro rfl
      exact ⟨hmemExtra, rfl⟩

end Generate

/-! ### What is generated for all specifications -/

/-- The generated volumes. -/
def volumes (self : GitSyncResources) : List Volume :=
  self.gitContentVolumes ++ self.gitSshVolumes ++ self.gitCaCertVolumes

/-- Resources that fit together. -/
structure Consistent (gitSyncs : List GitSync) (extraEnvVars : List EnvVar)
    (extraVolumeMounts : List VolumeMount) (logVolumeName : String)
    (resources : GitSyncResources) : Prop where
  length_contentVolumes : resources.gitContentVolumes.length = gitSyncs.length
  length_contentVolumeMounts : resources.gitContentVolumeMounts.length = gitSyncs.length
  length_contentFolders : resources.gitContentFolders.length = gitSyncs.length
  containerNames_nodup : ((resources.gitSyncContainers ++ resources.gitSyncInitContainers).map
    Container.name).Nodup
  volumeNames_nodup : (resources.volumes.map Volume.name).Nodup
  containers : List.Forall₂ (ContainerFits resources.volumes extraEnvVars extraVolumeMounts
    logVolumeName) gitSyncs resources.gitSyncContainers
  initContainers : List.Forall₂ (ContainerFits resources.volumes extraEnvVars extraVolumeMounts
    logVolumeName) gitSyncs resources.gitSyncInitContainers

/-- The names of optional parts are among the names of all items. -/
theorem map_filterMap_sublist {α β γ δ : Type} {f : β → Option γ} {k : γ → δ} {g : α → δ}
    {l : List α} {r : List β}
    (h : List.Forall₂ (fun a b => ∀ c, f b = some c → k c = g a) l r) :
    ((r.filterMap f).map k).Sublist (l.map g) := by
  induction h with
  | nil => exact List.Sublist.refl []
  | @cons a b l r hab _ ih =>
    match hb : f b with
    | none =>
      rw [List.filterMap_cons_none hb, List.map_cons]
      exact ih.cons _
    | some c =>
      rw [List.filterMap_cons_some hb, List.map_cons, List.map_cons, hab c hb]
      exact ih.cons_cons _

/-- Two lists of names with different prefixes have no name in common. -/
theorem disjoint_of_sublist {l : List GitSync} {names names' : List String} {f g : ℕ → String}
    (h : names.Sublist (l.zipIdx.map fun spec => f spec.2))
    (h' : names'.Sublist (l.zipIdx.map fun spec => g spec.2)) (hne : ∀ i j, f i ≠ g j) :
    ∀ a ∈ names, ∀ b ∈ names', a ≠ b := by
  intro a ha b hb
  obtain ⟨spec, -, rfl⟩ := List.mem_map.mp (h.subset ha)
  obtain ⟨spec', -, rfl⟩ := List.mem_map.mp (h'.subset hb)
  exact hne spec.2 spec'.2

section New

variable {gitSyncs : List GitSync} {resolvedProductImage : ResolvedProductImage}
  {extraEnvVars : List EnvVar} {extraVolumeMounts : List VolumeMount} {logVolumeName : String}
  {containerLogConfig : ContainerLogConfig} {generated : List Generated}

/-- Each specification has its generated parts. -/
abbrev GeneratedFor (resolvedProductImage : ResolvedProductImage) (extraEnvVars : List EnvVar)
    (extraVolumeMounts : List VolumeMount) (logVolumeName : String)
    (containerLogConfig : ContainerLogConfig) (gitSyncs : List GitSync)
    (generated : List Generated) : Prop :=
  List.Forall₂ (fun spec g => generate resolvedProductImage extraEnvVars extraVolumeMounts
    logVolumeName containerLogConfig spec.1 spec.2 = .ok g) gitSyncs.zipIdx generated

/-- The generated names are the names with the indices. -/
theorem GeneratedFor.map_sublist {f : Generated → String} {n : ℕ → String}
    (h : GeneratedFor resolvedProductImage extraEnvVars extraVolumeMounts logVolumeName
      containerLogConfig gitSyncs generated)
    (hf : ∀ gitSync i g, generate resolvedProductImage extraEnvVars extraVolumeMounts logVolumeName
      containerLogConfig gitSync i = .ok g → f g = n i) :
    (generated.map f).Sublist (gitSyncs.zipIdx.map fun spec => n spec.2) := by
  have hsublist := map_filterMap_sublist (f := some) (k := f) (g := fun spec => n spec.2)
    (h.imp fun spec g hg c hc => Option.some.inj hc ▸ hf spec.1 spec.2 g hg)
  rwa [List.filterMap_some] at hsublist

theorem GeneratedFor.containerNames_nodup
    (h : GeneratedFor resolvedProductImage extraEnvVars extraVolumeMounts logVolumeName
      containerLogConfig gitSyncs generated) :
    ((generated.map Generated.container ++ generated.map Generated.initContainer).map
      Container.name).Nodup := by
  have hname (oneTime : Bool) : (generated.map fun g => (g.containerFor oneTime).name).Sublist
      (gitSyncs.zipIdx.map fun spec => containerNameFor spec.2 oneTime) := by
    refine h.map_sublist (n := fun i => containerNameFor i oneTime) fun gitSync i g hg => ?_
    obtain ⟨_, _, _, -, -, -, hcontainer, -⟩ := generate_eq_ok hg
    exact (createGitSyncContainer_eq_ok (hcontainer oneTime)).1
  have hinit : Function.Injective fun i => indexed containerNamePrefix i ++ "-init" := by
    intro i j hij
    have hlist := congrArg String.toList hij
    simp only [String.toList_append] at hlist
    exact indexed_injective _ (String.toList_inj.mp (List.append_cancel_right hlist))
  have hdisjoint := disjoint_of_sublist (f := fun i => containerNameFor i false)
    (g := fun i => containerNameFor i true) (hname false) (hname true)
    (indexed_ne_append_init containerNamePrefix)
  rw [List.map_append, List.map_map, List.map_map, List.nodup_append]
  exact ⟨(hname false).nodup (nodup_map_indexed gitSyncs (indexed_injective containerNamePrefix)),
    (hname true).nodup (nodup_map_indexed gitSyncs hinit), hdisjoint⟩

theorem GeneratedFor.volumeNames_nodup
    (h : GeneratedFor resolvedProductImage extraEnvVars extraVolumeMounts logVolumeName
      containerLogConfig gitSyncs generated) :
    ((generated.map Generated.contentVolume ++ generated.filterMap Generated.sshVolume ++
      generated.filterMap Generated.caCertVolume).map Volume.name).Nodup := by
  have hcontent : ((generated.map Generated.contentVolume).map Volume.name).Sublist
      (gitSyncs.zipIdx.map fun spec => indexed volumeNamePrefix spec.2) := by
    rw [List.map_map]
    refine h.map_sublist fun gitSync i g hg => ?_
    obtain ⟨_, _, _, -, -, -, -, hname, -⟩ := generate_eq_ok hg
    exact hname
  have hssh : ((generated.filterMap Generated.sshVolume).map Volume.name).Sublist
      (gitSyncs.zipIdx.map fun spec => indexed sshVolumeNamePrefix spec.2) := by
    refine map_filterMap_sublist (h.imp fun spec g hg volume hvolume => ?_)
    obtain ⟨_, _, _, -, -, -, -, -, heq, -⟩ := generate_eq_ok hg
    exact name_sshVolume spec.2 spec.1 volume (heq ▸ hvolume)
  have hcaCert : ((generated.filterMap Generated.caCertVolume).map Volume.name).Sublist
      (gitSyncs.zipIdx.map fun spec => indexed caCertVolumeNamePrefix spec.2) := by
    refine map_filterMap_sublist (h.imp fun spec g hg volume hvolume => ?_)
    obtain ⟨_, _, _, -, -, -, -, -, -, hok⟩ := generate_eq_ok hg
    have hname := name_of_caCertVolume_eq_ok hok
    rw [hvolume, Option.map_some] at hname
    obtain ⟨_, -, hname⟩ := Option.map_eq_some_iff.mp hname.symm
    exact hname.symm
  -- the prefixes differ in their second characters
  have hcontentSsh := disjoint_of_sublist hcontent hssh (indexed_ne_indexed rfl rfl (by decide))
  have hcontentCaCert :=
    disjoint_of_sublist hcontent hcaCert (indexed_ne_indexed rfl rfl (by decide))
  have hsshCaCert := disjoint_of_sublist hssh hcaCert (indexed_ne_indexed rfl rfl (by decide))
  rw [List.map_append, List.map_append, List.nodup_append, List.nodup_append]
  refine ⟨⟨hcontent.nodup (nodup_map_indexed gitSyncs (indexed_injective _)),
    hssh.nodup (nodup_map_indexed gitSyncs (indexed_injective _)), hcontentSsh⟩,
    hcaCert.nodup (nodup_map_indexed gitSyncs (indexed_injective _)), ?_⟩
  intro a ha b hb
  obtain ha | ha := List.mem_append.mp ha
  · exact hcontentCaCert a ha b hb
  · exact hsshCaCert a ha b hb

/-- The containers of all specifications have what they need. -/
theorem GeneratedFor.containerFits
    (h : GeneratedFor resolvedProductImage extraEnvVars extraVolumeMounts logVolumeName
      containerLogConfig gitSyncs generated) (oneTime : Bool) :
    List.Forall₂ (ContainerFits (generated.map Generated.contentVolume ++
        generated.filterMap Generated.sshVolume ++ generated.filterMap Generated.caCertVolume)
      extraEnvVars extraVolumeMounts logVolumeName) gitSyncs
      (generated.map fun g => g.containerFor oneTime) := by
  obtain ⟨hlength, hget⟩ := List.forall₂_iff_get.mp h
  rw [List.forall₂_map_right_iff]
  conv => arg 2; rw [← List.zipIdx_map_fst 0 gitSyncs]
  rw [List.forall₂_map_left_iff, List.forall₂_iff_get]
  refine ⟨hlength, fun j hj hj' => containerFits_of_generate_eq_ok (hget j hj hj') ?_ oneTime⟩
  have hmem := List.get_mem generated ⟨j, hj'⟩
  rintro volume (rfl | hssh | hcaCert)
  · exact List.mem_append_left _ (List.mem_append_left _ (List.mem_map_of_mem hmem))
  · exact List.mem_append_left _ (List.mem_append_right _ (List.mem_filterMap.mpr ⟨_, hmem, hssh⟩))
  · exact List.mem_append_right _ (List.mem_filterMap.mpr ⟨_, hmem, hcaCert⟩)

end New

/-- **Resources of git-sync are consistent.** -/
theorem new_consistent {gitSyncs : List GitSync} {resolvedProductImage : ResolvedProductImage}
    {extraEnvVars : List EnvVar} {extraVolumeMounts : List VolumeMount} {logVolumeName : String}
    {containerLogConfig : ContainerLogConfig} {resources : GitSyncResources}
    (h : new gitSyncs resolvedProductImage extraEnvVars extraVolumeMounts logVolumeName
      containerLogConfig = .ok resources) :
    Consistent gitSyncs extraEnvVars extraVolumeMounts logVolumeName resources := by
  obtain ⟨generated, hgenerated, hresources⟩ := bind_eq_ok.mp h
  have hfor : GeneratedFor resolvedProductImage extraEnvVars extraVolumeMounts logVolumeName
      containerLogConfig gitSyncs generated := mapM_eq_ok_iff.mp hgenerated
  have hlength : generated.length = gitSyncs.length := by
    rw [← hfor.length_eq, List.length_zipIdx]
  rw [← Except.ok.inj hresources]
  exact
    { length_contentVolumes := by rw [List.length_map, hlength]
      length_contentVolumeMounts := by rw [List.length_map, hlength]
      length_contentFolders := by rw [List.length_map, hlength]
      containerNames_nodup := hfor.containerNames_nodup
      volumeNames_nodup := hfor.volumeNames_nodup
      containers := hfor.containerFits false
      initContainers := hfor.containerFits true }

/-- A repository with an SSH key and a CA certificate. -/
def sampleGitSync : GitSync where
  repo := ⟨"https", "https://example.com/repo"⟩
  credentials := some (.sshPrivateKeySecretName "git-ssh")
  tls := ⟨some ⟨.server ⟨.secretClass "tls"⟩⟩⟩

/-- A variable that replaces a generated one. -/
def sampleEnvVar : EnvVar := ⟨"GITSYNC_SSH_KEY_FILE", some "/key", none⟩

theorem new_consistent_sample : ∃ resources,
    new [sampleGitSync, sampleGitSync] ⟨"product:1.0.0", "Always"⟩ [sampleEnvVar] [] "log" ⟨none⟩ =
      .ok resources ∧
    Consistent [sampleGitSync, sampleGitSync] [sampleEnvVar] [] "log" resources := by
  match h : new [sampleGitSync, sampleGitSync] ⟨"product:1.0.0", "Always"⟩ [sampleEnvVar] [] "log"
    ⟨none⟩ with
  | .ok resources => exact ⟨resources, rfl, new_consistent h⟩
  | .error e =>
    have hok : (new [sampleGitSync, sampleGitSync] ⟨"product:1.0.0", "Always"⟩ [sampleEnvVar] []
      "log" ⟨none⟩).toBool = true := by decide +kernel
    rw [h] at hok
    exact absurd hok (by simp [Except.toBool])

end GitSyncResources

end StackableOperator
