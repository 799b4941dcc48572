import Mathlib
import StackableOperator.Crd.GitSync.Script
import StackableOperator.ForMathlib.Traverse
import StackableOperator.V2.Builder.Pod.EnvVarOrder

/-!
# Resources of git-sync

`GitSyncResources.new` generates the containers, volumes, mounts and folders for a list of
`GitSync` specifications. Names and paths carry the index of the specification.

`createGitSyncContainer_eq_ok` and the lemmas about environment variables say what a container gets:
each variable once, where the last extra variable with a name replaces the generated one.
-/

namespace StackableOperator

/-- The image that a container runs. -/
structure ResolvedProductImage where
  image : String
  imagePullPolicy : String

/-! ### Paths -/

/-- A part of a path that stands for no component. -/
def isEmptyComponent (part : List Char) : Bool := part = [] || part = ['.']

/-- `Path::strip_prefix("/")`: the components after the root, without the empty ones at both
ends. -/
def stripRoot (path : List Char) : Option (List Char) :=
  match path with
  | '/' :: rest =>
    let parts := (rest.splitOn '/').dropWhile isEmptyComponent
    some (['/'].intercalate (parts.reverse.dropWhile isEmptyComponent).reverse)
  | _ => none

/-- `PathBuf::push`: an absolute path replaces the path. -/
def pushPath (self path : List Char) : List Char :=
  if path.head? = some '/' then path
  else if self = [] ∨ self.getLast? = some '/' then self ++ path
  else self ++ '/' :: path

/-- A path is below a directory. -/
def IsBelow (path directory : String) : Prop := ∃ rest, path = directory ++ "/" ++ rest

structure GitSyncResources where
  gitSyncContainers : List Container
  gitSyncInitContainers : List Container
  gitContentVolumes : List Volume
  gitContentVolumeMounts : List VolumeMount
  gitContentFolders : List String
  gitSshVolumes : List Volume
  gitCaCertVolumes : List Volume

namespace GitSyncResources

open V2

inductive Error : Type
  | invalidContainerName (source : ContainerBuilder.Error)
  | invalidEnvVar (source : EnvVarSet.Error)
  | invalidEnvVarName (source : AttributedStringError)
  | invalidSecretKey (source : AttributedStringError)
  | invalidSecretName (source : AttributedStringError) (name : String)
  | addVolumeMount (source : ContainerBuilder.Error)
  | secretClassVolume (source : SecretClassVolume.Error)
  | schemeMismatch (scheme : String)

/-! ### Names and paths -/

def containerNamePrefix : String := "git-sync"
def volumeNamePrefix : String := "content-from-git"
def mountPathPrefix : String := "/stackable/app/git"
def sshVolumeNamePrefix : String := "ssh-keys-info"
def sshMountPathPrefix : String := "/stackable/gitssh"
def caCertVolumeNamePrefix : String := "ca-cert"
def caCertMountPathPrefix : String := "/stackable/gitca"

/-- The name or path for the specification with this index. -/
def indexed (namePrefix : String) (i : ℕ) : String := namePrefix ++ "-" ++ toString i

/-! ### Environment variables -/

/-- Add a variable with the value of a secret. -/
def withSecretKeyRef (envVars : EnvVarSet) (name secretName secretKey : String) :
    Except Error EnvVarSet := do
  let envVarName ← (EnvVarName.fromStr name).mapError .invalidEnvVarName
  let secretName ← (AttributedString.fromStr _ secretName).mapError fun source =>
    .invalidSecretName source secretName
  let secretKey ← (AttributedString.fromStr _ secretKey).mapError .invalidSecretKey
  return envVars.withSecretKeyRef envVarName secretName secretKey

/-- Add a variable with a literal value. -/
def withValue (envVars : EnvVarSet) (name value : String) : Except Error EnvVarSet := do
  let envVarName ← (EnvVarName.fromStr name).mapError .invalidEnvVarName
  return envVars.withValue envVarName value

/-- The variables for the credentials. -/
def credentialsEnvVars (i : ℕ) (gitSync : GitSync) : Except Error EnvVarSet :=
  match gitSync.credentials with
  | some (.basicAuthSecretName secretName) => do
    let envVars ← withSecretKeyRef .new "GITSYNC_USERNAME" secretName "user"
    withSecretKeyRef envVars "GITSYNC_PASSWORD" secretName "password"
  | some (.sshPrivateKeySecretName _) => do
    let envVars ← withValue .new "GITSYNC_SSH_KEY_FILE" (indexed sshMountPathPrefix i ++ "/key")
    withValue envVars "GITSYNC_SSH_KNOWN_HOSTS_FILE" (indexed sshMountPathPrefix i ++ "/knownHosts")
  | none => .ok .new

/-- Add the extra variables one after the other. -/
def withExtraEnvVars (envVars : EnvVarSet) (extraEnvVars : List EnvVar) : Except Error EnvVarSet :=
  extraEnvVars.foldlM (fun envVars extraEnvVar =>
    (envVars.withEnvVar extraEnvVar).mapError .invalidEnvVar) envVars

/-! ### Mounts -/

def sshVolumeMounts (i : ℕ) (gitSync : GitSync) : List VolumeMount :=
  match gitSync.credentials with
  | some (.sshPrivateKeySecretName _) =>
    [(VolumeMountBuilder.new (indexed sshVolumeNamePrefix i) (indexed sshMountPathPrefix i)).build]
  | _ => []

def caCertVolumeMounts (i : ℕ) (gitSync : GitSync) : List VolumeMount :=
  match gitSync.tls.tlsCaCertSecretClass with
  | some _ =>
    [(VolumeMountBuilder.new (indexed caCertVolumeNamePrefix i)
      (indexed caCertMountPathPrefix i)).build]
  | none => []

def containerVolumeMounts (i : ℕ) (gitSync : GitSync) (extraVolumeMounts : List VolumeMount)
    (logVolumeName : String) : List VolumeMount :=
  [{ name := indexed volumeNamePrefix i, mountPath := gitSyncRootDir },
    { name := logVolumeName, mountPath := logVolumeMountPath }] ++ extraVolumeMounts ++
    sshVolumeMounts i gitSync ++ caCertVolumeMounts i gitSync

/-- Check that the scheme is compatible with the TLS settings, and find the path of the CA
certificate. -/
def caCertPath (i : ℕ) (gitSync : GitSync) : Except Error (Option String) :=
  let scheme := gitSync.repo.scheme
  match gitSync.tls.tls with
  | some ⟨.none⟩ => .ok none
  | some ⟨.server ⟨.webPki⟩⟩ =>
    if scheme ≠ "http" then .ok none else .error (.schemeMismatch scheme)
  | some ⟨.server ⟨.secretClass _⟩⟩ =>
    if scheme ≠ "http" then .ok (some (indexed caCertMountPathPrefix i ++ "/ca.crt"))
    else .error (.schemeMismatch scheme)
  | none => .ok none

/-! ### Containers -/

def createGitSyncContainer (containerName : String) (resolvedProductImage : ResolvedProductImage)
    (gitSync : GitSync) (oneTime : Bool) (envVars : EnvVarSet) (volumeMounts : List VolumeMount)
    (containerLogConfig : ContainerLogConfig) (caCertPath : Option String) :
    Except Error Container := do
  let builder ← (ContainerBuilder.new containerName).mapError .invalidContainerName
  let script :=
    createGitSyncShellScript containerName gitSync oneTime containerLogConfig caCertPath
  let builder := builder.withImage resolvedProductImage.image resolvedProductImage.imagePullPolicy
    |>.withCommand ["/bin/bash", "-x", "-euo", "pipefail", "-c"]
    |>.withArgs [script]
    |>.addEnvVars envVars.toVec
  let builder ← (builder.addVolumeMounts volumeMounts).mapError .addVolumeMount
  return builder.withResources
    { limits := [("cpu", "200m"), ("memory", "64Mi")]
      requests := [("cpu", "100m"), ("memory", "64Mi")] } |>.build

/-! ### Resources of one specification -/

/-- What is generated for one specification. -/
structure Generated where
  container : Container
  initContainer : Container
  contentVolume : Volume
  contentVolumeMount : VolumeMount
  contentFolder : String
  sshVolume : Option Volume
  caCertVolume : Option Volume

def gitContentFolder (i : ℕ) (gitSync : GitSync) : String :=
  let gitFolder := gitSync.gitFolder.toList
  let relativeGitFolder := (stripRoot gitFolder).getD gitFolder
  String.ofList (pushPath (pushPath (indexed mountPathPrefix i).toList gitSyncLink.toList)
    relativeGitFolder)

def sshVolume (i : ℕ) (gitSync : GitSync) : Option Volume :=
  match gitSync.credentials with
  | some (.sshPrivateKeySecretName secretName) =>
    some ((VolumeBuilder.new (indexed sshVolumeNamePrefix i)).withSecret secretName false).build
  | _ => none

def caCertVolume (i : ℕ) (gitSync : GitSync) : Except Error (Option Volume) :=
  match gitSync.tls.tlsCaCertSecretClass with
  | some secretClass =>
    -- only the public CA certificate is needed
    match (SecretClassVolume.mk secretClass none).toVolume (indexed caCertVolumeNamePrefix i)
      .public with
    | .ok volume => .ok (some volume)
    | .error source => .error (.secretClassVolume source)
  | none => .ok none

def generate (resolvedProductImage : ResolvedProductImage) (extraEnvVars : List EnvVar)
    (extraVolumeMounts : List VolumeMount) (logVolumeName : String)
    (containerLogConfig : ContainerLogConfig) (gitSync : GitSync) (i : ℕ) :
    Except Error Generated := do
  let envVars ← credentialsEnvVars i gitSync
  let envVars ← withExtraEnvVars envVars extraEnvVars
  let volumeMounts := containerVolumeMounts i gitSync extraVolumeMounts logVolumeName
  let caCertPath ← caCertPath i gitSync
  let container ← createGitSyncContainer (indexed containerNamePrefix i) resolvedProductImage
    gitSync false envVars volumeMounts containerLogConfig caCertPath
  let initContainer ← createGitSyncContainer (indexed containerNamePrefix i ++ "-init")
    resolvedProductImage gitSync true envVars volumeMounts containerLogConfig caCertPath
  let caCertVolume ← caCertVolume i gitSync
  return {
    container := container
    initContainer := initContainer
    contentVolume := ((VolumeBuilder.new (indexed volumeNamePrefix i)).emptyDir {}).build
    contentVolumeMount :=
      { name := indexed volumeNamePrefix i, mountPath := indexed mountPathPrefix i }
    contentFolder := gitContentFolder i gitSync
    sshVolume := sshVolume i gitSync
    caCertVolume := caCertVolume }

/-- Generate the resources of all specifications, with their indices. -/
def new (gitSyncs : List GitSync) (resolvedProductImage : ResolvedProductImage)
    (extraEnvVars : List EnvVar) (extraVolumeMounts : List VolumeMount) (logVolumeName : String)
    (containerLogConfig : ContainerLogConfig) : Except Error GitSyncResources := do
  let generated ← gitSyncs.zipIdx.mapM fun spec =>
    generate resolvedProductImage extraEnvVars extraVolumeMounts logVolumeName containerLogConfig
      spec.1 spec.2
  return {
    gitSyncContainers := generated.map Generated.container
    gitSyncInitContainers := generated.map Generated.initContainer
    gitContentVolumes := generated.map Generated.contentVolume
    gitContentVolumeMounts := generated.map Generated.contentVolumeMount
    gitContentFolders := generated.map Generated.contentFolder
    gitSshVolumes := generated.filterMap Generated.sshVolume
    gitCaCertVolumes := generated.filterMap Generated.caCertVolume }

end GitSyncResources

/-! ### Environment variables by their names -/

namespace V2.EnvVarSet

theorem get_insert (self : EnvVarSet) {name : EnvVarName} {envVar : EnvVar}
    (hname : envVar.name = name.1) (name' : EnvVarName) :
    (self.insert name envVar hname).get name' =
      if envVar.name = name'.1 then some envVar else self.get name' := by
  rw [hname]
  by_cases heq : name = name'
  · subst heq
    rw [if_pos rfl]
    exact IterMap.get?_insert_self (M := BTreeMap EnvVarName) self.envVars name envVar
  · rw [if_neg fun h => heq (Subtype.ext h)]
    exact IterMap.get?_insert_of_ne (M := BTreeMap EnvVarName) self.envVars envVar (Ne.symm heq)

theorem get_of_withEnvVar_eq_ok {self r : EnvVarSet} {envVar : EnvVar}
    (h : self.withEnvVar envVar = .ok r) (name : EnvVarName) :
    r.get name = if envVar.name = name.1 then some envVar else self.get name := by
  unfold withEnvVar at h
  split at h
  · next name' hname =>
    rw [← Except.ok.inj h]
    exact self.get_insert _ name
  · exact absurd h (by simp)

theorem exists_name_of_withEnvVar_eq_ok {self r : EnvVarSet} {envVar : EnvVar}
    (h : self.withEnvVar envVar = .ok r) : ∃ name : EnvVarName, name.1 = envVar.name := by
  unfold withEnvVar at h
  split at h
  · next name hname => exact ⟨name, EnvVarName.eq_of_fromStr_eq_ok hname⟩
  · exact absurd h (by simp)

end V2.EnvVarSet

namespace GitSyncResources

open V2

theorem get_of_withValue_eq_ok {envVars r : EnvVarSet} {name value : String}
    (h : withValue envVars name value = .ok r) (name' : EnvVarName) :
    r.get name' = if name = name'.1 then some ⟨name, some value, none⟩ else envVars.get name' := by
  obtain ⟨envVarName, hname, hset⟩ := bind_eq_ok.mp h
  obtain rfl := EnvVarName.eq_of_fromStr_eq_ok (mapError_eq_ok_iff.mp hname)
  rw [← Except.ok.inj hset]
  exact envVars.get_insert _ name'

/-- A variable with the value of a secret has no literal value. -/
theorem get_of_withSecretKeyRef_eq_ok {envVars r : EnvVarSet} {name secretName secretKey : String}
    (h : withSecretKeyRef envVars name secretName secretKey = .ok r) {name' : EnvVarName}
    {envVar : EnvVar} (hget : r.get name' = some envVar) :
    envVar.value = none ∨ envVars.get name' = some envVar := by
  obtain ⟨envVarName, -, h⟩ := bind_eq_ok.mp h
  obtain ⟨secretName', -, h⟩ := bind_eq_ok.mp h
  obtain ⟨secretKey', -, h⟩ := bind_eq_ok.mp h
  rw [← Except.ok.inj h, EnvVarSet.withSecretKeyRef, EnvVarSet.withSource,
    EnvVarSet.get_insert] at hget
  split_ifs at hget
  · rw [← Option.some.inj hget]
    exact Or.inl rfl
  · exact Or.inr hget

theorem get_new (name : EnvVarName) : EnvVarSet.new.get name = none :=
  IterMap.get?_empty (M := BTreeMap EnvVarName) name

/-- Whether the credentials are an SSH key. -/
def UsesSsh (gitSync : GitSync) : Prop :=
  ∃ secretName, gitSync.credentials = some (.sshPrivateKeySecretName secretName)

theorem isBelow_append {directory suffix : String} (r : String) (h : suffix = "/" ++ r) :
    IsBelow (directory ++ suffix) directory :=
  ⟨r, by rw [h, String.append_assoc]⟩

/-- A literal value of a variable for the credentials is a path to the SSH key. -/
theorem isBelow_of_credentialsEnvVars_eq_ok {i : ℕ} {gitSync : GitSync} {envVars : EnvVarSet}
    (h : credentialsEnvVars i gitSync = .ok envVars) {name : EnvVarName} {envVar : EnvVar}
    (hget : envVars.get name = some envVar) {value : String} (hvalue : envVar.value = some value) :
    UsesSsh gitSync ∧ IsBelow value (indexed sshMountPathPrefix i) := by
  unfold credentialsEnvVars at h
  split at h
  · obtain ⟨username, husername, h⟩ := bind_eq_ok.mp h
    obtain hnone | hget := get_of_withSecretKeyRef_eq_ok h hget
    · exact absurd (hvalue.symm.trans hnone) (by simp)
    · obtain hnone | hget := get_of_withSecretKeyRef_eq_ok husername hget
      · exact absurd (hvalue.symm.trans hnone) (by simp)
      · exact absurd (hget.symm.trans (get_new name)) (by simp)
  · next secretName hcredentials =>
    obtain ⟨keyFile, hkeyFile, h⟩ := bind_eq_ok.mp h
    rw [get_of_withValue_eq_ok h, get_of_withValue_eq_ok hkeyFile, get_new] at hget
    refine ⟨⟨secretName, hcredentials⟩, ?_⟩
    split_ifs at hget
    · rw [← Option.some.inj hget] at hvalue
      rw [← Option.some.inj hvalue]
      exact isBelow_append "knownHosts" (by decide)
    · rw [← Option.some.inj hget] at hvalue
      rw [← Option.some.inj hvalue]
      exact isBelow_append "key" (by decide)
  · rw [← Except.ok.inj h, get_new] at hget
    exact absurd hget (by simp)

/-- The names of the variables with the paths of the SSH files. -/
def sshEnvVarNames : List String := ["GITSYNC_SSH_KEY_FILE", "GITSYNC_SSH_KNOWN_HOSTS_FILE"]

theorem isSome_get_of_usesSsh {i : ℕ} {gitSync : GitSync} {envVars : EnvVarSet}
    (h : credentialsEnvVars i gitSync = .ok envVars) (hssh : UsesSsh gitSync) {name : EnvVarName}
    (hname : name.1 ∈ sshEnvVarNames) : (envVars.get name).isSome = true := by
  obtain ⟨secretName, hcredentials⟩ := hssh
  simp only [credentialsEnvVars, hcredentials] at h
  obtain ⟨keyFile, hkeyFile, h⟩ := bind_eq_ok.mp h
  rw [get_of_withValue_eq_ok h, get_of_withValue_eq_ok hkeyFile]
  simp only [sshEnvVarNames, List.mem_cons, List.not_mem_nil, or_false] at hname
  obtain hname | hname := hname <;> simp [hname]

/-- The last extra variable with a name replaces the other variables with this name. -/
theorem get_of_withExtraEnvVars_eq_ok {envVars r : EnvVarSet} {extraEnvVars : List EnvVar}
    (h : withExtraEnvVars envVars extraEnvVars = .ok r) (name : EnvVarName) :
    r.get name =
      (extraEnvVars.reverse.find? fun extra => extra.name = name.1).or (envVars.get name) := by
  induction extraEnvVars generalizing envVars with
  | nil =>
    rw [← Except.ok.inj h]
    rfl
  | cons extra extraEnvVars ih =>
    rw [withExtraEnvVars, List.foldlM_cons] at h
    obtain ⟨next, hnext, h⟩ := bind_eq_ok.mp h
    rw [ih h, EnvVarSet.get_of_withEnvVar_eq_ok (mapError_eq_ok_iff.mp hnext), List.reverse_cons,
      List.find?_append, Option.or_assoc, List.find?_singleton]
    split_ifs <;> simp_all

/-- Extra variables that are added have valid names. -/
theorem exists_name_of_withExtraEnvVars_eq_ok {envVars r : EnvVarSet} {extraEnvVars : List EnvVar}
    (h : withExtraEnvVars envVars extraEnvVars = .ok r) {extra : EnvVar}
    (hextra : extra ∈ extraEnvVars) : ∃ name : EnvVarName, name.1 = extra.name := by
  induction extraEnvVars generalizing envVars with
  | nil => exact absurd hextra List.not_mem_nil
  | cons first extraEnvVars ih =>
    rw [withExtraEnvVars, List.foldlM_cons] at h
    obtain ⟨next, hnext, h⟩ := bind_eq_ok.mp h
    obtain rfl | hextra := List.mem_cons.mp hextra
    · exact EnvVarSet.exists_name_of_withEnvVar_eq_ok (mapError_eq_ok_iff.mp hnext)
    · exact ih h hextra

end GitSyncResources

namespace GitSyncResources

/-- A CA certificate is used if it comes from a SecretClass. -/
theorem eq_of_caCertPath_eq_ok {i : ℕ} {gitSync : GitSync} {path : String}
    (h : caCertPath i gitSync = .ok (some path)) :
    gitSync.tls.tlsCaCertSecretClass.isSome = true ∧
      path = indexed caCertMountPathPrefix i ++ "/ca.crt" := by
  unfold caCertPath at h
  dsimp only at h
  split at h
  · exact absurd (Except.ok.inj h) (by simp)
  · split_ifs at h
    exact absurd (Except.ok.inj h) (by simp)
  · next secretClass htls =>
    split_ifs at h
    exact ⟨by rw [TlsClientDetails.tlsCaCertSecretClass, htls]; rfl,
      (Option.some.inj (Except.ok.inj h)).symm⟩
  · exact absurd (Except.ok.inj h) (by simp)

end GitSyncResources

/-! ### Containers with what was added -/

namespace Container

def mounts (self : Container) : List VolumeMount := self.volumeMounts.getD []

def envVars (self : Container) : List V2.EnvVar := self.env.getD []

end Container

namespace ContainerBuilder

/-- A built container has the mounts of its builder. -/
theorem mounts_build (self : ContainerBuilder) : self.build.mounts = self.volumeMounts.values := by
  match hvalues : self.volumeMounts.values with
  | [] => simp [Container.mounts, build, hvalues]
  | mount :: mounts => simp [Container.mounts, build, hvalues]

theorem eq_of_new {name : String} {self : ContainerBuilder} (h : new name = .ok self) :
    self = { name := name } := by
  unfold new at h
  split at h
  · exact absurd h (by simp)
  · exact (Except.ok.inj h).symm

/-- Adding mounts changes nothing but the mounts. -/
theorem eq_of_addVolumeMounts_eq_ok {self r : ContainerBuilder} {mounts : List VolumeMount}
    (h : self.addVolumeMounts mounts = .ok r) :
    r = { self with volumeMounts := r.volumeMounts } := by
  unfold addVolumeMounts at h
  split at h
  · exact absurd h (by simp)
  · rw [← Except.ok.inj h]

end ContainerBuilder

namespace GitSyncResources

open V2

/-- What is known about a created container. -/
theorem createGitSyncContainer_eq_ok {containerName : String}
    {resolvedProductImage : ResolvedProductImage} {gitSync : GitSync} {oneTime : Bool}
    {envVars : EnvVarSet} {volumeMounts : List VolumeMount}
    {containerLogConfig : ContainerLogConfig} {caCertPath : Option String} {container : Container}
    (h : createGitSyncContainer containerName resolvedProductImage gitSync oneTime envVars
      volumeMounts containerLogConfig caCertPath = .ok container) :
    container.name = containerName ∧
      container.args = some [createGitSyncShellScript containerName gitSync oneTime
        containerLogConfig caCertPath] ∧
      container.envVars = envVars.toVec ∧
      (∀ mount, mount ∈ container.mounts ↔ mount ∈ volumeMounts) ∧
      (container.mounts.map VolumeMount.mountPath).Nodup := by
  obtain ⟨builder, hbuilder, hrest⟩ := bind_eq_ok.mp h
  obtain ⟨mounted, hmounted, hbuild⟩ := bind_eq_ok.mp hrest
  have hnew := mapError_eq_ok_iff.mp hbuilder
  have hadd := mapError_eq_ok_iff.mp hmounted
  obtain rfl := ContainerBuilder.eq_of_new hnew
  have hmem (mount : VolumeMount) :
      mount ∈ mounted.volumeMounts.values ↔ mount ∈ [] ∨ mount ∈ volumeMounts :=
    ContainerBuilder.mem_of_addVolumeMounts_eq_ok hadd
  rw [ContainerBuilder.eq_of_addVolumeMounts_eq_ok hadd] at hbuild
  rw [← Except.ok.inj hbuild]
  refine ⟨rfl, rfl, rfl, fun mount => ?_, ?_⟩
  · rw [ContainerBuilder.mounts_build]
    exact (hmem mount).trans (by simp)
  · rw [ContainerBuilder.mounts_build]
    exact mounted.volumeMounts.nodup

end GitSyncResources

end StackableOperator
