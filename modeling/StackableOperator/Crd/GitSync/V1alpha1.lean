import Mathlib
import StackableOperator.Crd.GitSync.Resources

/-!
# Version v1alpha1 of git-sync

In v1alpha1 the credentials are always those of a basic authentication, and the TLS settings are
part of a specification but the resources do not depend on them. `GitSync.upgrade` and
`GitSync.downgrade` are the conversions between the versions.

`GitSyncResources.new_upgrade_iff` says when an upgrade of the specifications preserves the
resources that are generated from them. Constants and paths are the same in both versions.
-/

namespace StackableOperator.V1alpha1

open V2
open StackableOperator.GitSyncResources (gitSyncSafeDirOption gitSyncRootDir gitSyncLink
  gitSslVerify logVolumeMountPath containerNamePrefix volumeNamePrefix mountPathPrefix indexed)

/-! ### Specifications and their conversions -/

structure GitSync where
  repo : Url
  branch : String := "main"
  /-- The path of a folder in the repository -/
  gitFolder : String := "/"
  depth : UInt32 := 1
  wait : Duration := .fromSecs 20 twentySecs_lt
  gitSyncConf : BTreeMap String String := ∅
  credentialsSecret : Option String := none
  tls : TlsClientDetails := ⟨some ⟨.server ⟨.webPki⟩⟩⟩

/-- An SSH key does not map onto anything in v1alpha1. -/
def credentialsToSecret (input : Option Credentials) : Option String :=
  match input with
  | some (.basicAuthSecretName credentialsSecret) => some credentialsSecret
  | _ => none

def credentialsSecretToBasicAuth (input : Option String) : Option Credentials :=
  input.map .basicAuthSecretName

namespace GitSync

/-- Convert to v1alpha2. -/
def upgrade (self : GitSync) : StackableOperator.GitSync where
  repo := self.repo
  branch := self.branch
  gitFolder := self.gitFolder
  depth := self.depth
  wait := self.wait
  gitSyncConf := self.gitSyncConf
  credentials := credentialsSecretToBasicAuth self.credentialsSecret
  tls := self.tls

/-- Convert from v1alpha2. -/
def downgrade (gitSync : StackableOperator.GitSync) : GitSync where
  repo := gitSync.repo
  branch := gitSync.branch
  gitFolder := gitSync.gitFolder
  depth := gitSync.depth
  wait := gitSync.wait
  gitSyncConf := gitSync.gitSyncConf
  credentialsSecret := credentialsToSecret gitSync.credentials
  tls := gitSync.tls

theorem downgrade_upgrade (self : GitSync) : downgrade self.upgrade = self := by
  obtain ⟨repo, branch, gitFolder, depth, wait, gitSyncConf, credentialsSecret, tls⟩ := self
  cases credentialsSecret <;> rfl

/-- The conversion to v1alpha1 loses exactly the SSH keys. -/
theorem upgrade_downgrade_iff {gitSync : StackableOperator.GitSync} :
    (downgrade gitSync).upgrade = gitSync ↔
      ¬ StackableOperator.GitSyncResources.UsesSsh gitSync := by
  obtain ⟨repo, branch, gitFolder, depth, wait, gitSyncConf, credentials, tls⟩ := gitSync
  rcases credentials with _ | ⟨name⟩ | ⟨name⟩ <;>
    simp [downgrade, upgrade, credentialsToSecret, credentialsSecretToBasicAuth,
      StackableOperator.GitSyncResources.UsesSsh]

end GitSync

/-! ### Resources -/

structure GitSyncResources where
  gitSyncContainers : List Container
  gitSyncInitContainers : List Container
  gitContentVolumes : List Volume
  gitContentVolumeMounts : List VolumeMount
  gitContentFolders : List String

namespace GitSyncResources

inductive Error : Type
  | invalidContainerName (source : ContainerBuilder.Error)
  | invalidEnvVar (source : EnvVarSet.Error)
  | invalidEnvVarName (source : AttributedStringError)
  | invalidSecretKey (source : AttributedStringError)
  | invalidSecretName (source : AttributedStringError) (name : String)
  | addVolumeMount (source : ContainerBuilder.Error)

/-- The options that are set internally, in the order of insertion. -/
def internalArgs (gitSync : GitSync) (oneTime : Bool) : BTreeMap String String :=
  IterMap.collect
    [("--repo", gitSync.repo.asStr), ("--ref", gitSync.branch),
      ("--depth", toString gitSync.depth.toNat), ("--period", toString gitSync.wait.asSecs ++ "s"),
      ("--link", gitSyncLink), ("--root", gitSyncRootDir),
      ("--one-time", if oneTime then "true" else "false")]

def internalGitConfig : BTreeMap String String :=
  IterMap.collect [(gitSyncSafeDirOption, gitSyncRootDir)]

/-- The user-defined Git config is just appended. -/
def gitConfig (gitSync : GitSync) : String :=
  ",".intercalate
    ((IterMap.iter (M := BTreeMap String) internalGitConfig).map (fun e => e.1 ++ ":" ++ e.2) ++
      (IterMap.get? (M := BTreeMap String) gitSync.gitSyncConf "--git-config").toList)

/-- The user-defined options without the ones that are internally defined -/
def userDefinedArgs (gitSync : GitSync) (oneTime : Bool) : List (String × String) :=
  (IterMap.iter (M := BTreeMap String) (BTreeMap.remove gitSync.gitSyncConf "--git-config")).filter
    fun e => (IterMap.get? (M := BTreeMap String) (internalArgs gitSync oneTime) e.1).isNone

def args (gitSync : GitSync) (oneTime : Bool) : BTreeMap String String :=
  IterMap.insert (M := BTreeMap String)
    (IterMap.extend (M := BTreeMap String) (internalArgs gitSync oneTime)
      (IterMap.collect (userDefinedArgs gitSync oneTime)))
    "--git-config" ("'" ++ gitConfig gitSync ++ "'")

def gitSyncCommand (gitSync : GitSync) (oneTime : Bool) : String :=
  let argsString := " ".intercalate
    ((IterMap.iter (M := BTreeMap String) (args gitSync oneTime)).map fun e => e.1 ++ "=" ++ e.2)
  "/stackable/git-sync " ++ argsString

def createGitSyncShellScript (containerName : String) (gitSync : GitSync) (oneTime : Bool)
    (containerLogConfig : ContainerLogConfig) : String :=
  let shellScript :=
    match containerLogConfig.choice with
    | some (.automatic logConfig) =>
      captureShellOutput logVolumeMountPath containerName logConfig ++ "\n"
    | _ => ""
  if oneTime then
    shellScript ++ gitSyncCommand gitSync oneTime
  else
    -- the command runs in the background
    shellScript ++ commonBashTrapFunctions ++ "\nprepare_signal_handlers\n" ++
      gitSyncCommand gitSync oneTime ++ " &\nwait_for_termination $!"

/-- Add a variable with the value of a secret. -/
def withSecretKeyRef (envVars : EnvVarSet) (name secretName secretKey : String) :
    Except Error EnvVarSet := do
  let envVarName ← (EnvVarName.fromStr name).mapError .invalidEnvVarName
  let secretName ← (AttributedString.fromStr _ secretName).mapError fun source =>
    .invalidSecretName source secretName
  let secretKey ← (AttributedString.fromStr _ secretKey).mapError .invalidSecretKey
  return envVars.withSecretKeyRef envVarName secretName secretKey

/-- The variables for the credentials. -/
def credentialsEnvVars (gitSync : GitSync) : Except Error EnvVarSet :=
  match gitSync.credentialsSecret with
  | some gitCredentialsSecret => do
    let envVars ← withSecretKeyRef .new "GITSYNC_USERNAME" gitCredentialsSecret "user"
    withSecretKeyRef envVars "GITSYNC_PASSWORD" gitCredentialsSecret "password"
  | none => .ok .new

/-- Add the extra variables one after the other. -/
def withExtraEnvVars (envVars : EnvVarSet) (extraEnvVars : List EnvVar) : Except Error EnvVarSet :=
  extraEnvVars.foldlM (fun envVars extraEnvVar =>
    (envVars.withEnvVar extraEnvVar).mapError .invalidEnvVar) envVars

def containerVolumeMounts (i : ℕ) (extraVolumeMounts : List VolumeMount) (logVolumeName : String) :
    List VolumeMount :=
  [{ name := indexed volumeNamePrefix i, mountPath := gitSyncRootDir },
    { name := logVolumeName, mountPath := logVolumeMountPath }] ++ extraVolumeMounts

def createGitSyncContainer (containerName : String) (resolvedProductImage : ResolvedProductImage)
    (gitSync : GitSync) (oneTime : Bool) (envVars : EnvVarSet) (volumeMounts : List VolumeMount)
    (containerLogConfig : ContainerLogConfig) : Except Error Container := do
  let builder ← (ContainerBuilder.new containerName).mapError .invalidContainerName
  let script := createGitSyncShellScript containerName gitSync oneTime containerLogConfig
  let builder := builder.withImage resolvedProductImage.image resolvedProductImage.imagePullPolicy
    |>.withCommand ["/bin/bash", "-x", "-euo", "pipefail", "-c"]
    |>.withArgs [script]
    |>.addEnvVars envVars.toVec
  let builder ← (builder.addVolumeMounts volumeMounts).mapError .addVolumeMount
  return builder.withResources
    { limits := [("cpu", "200m"), ("memory", "64Mi")]
      requests := [("cpu", "100m"), ("memory", "64Mi")] } |>.build

/-- What is generated for one specification. -/
structure Generated where
  container : Container
  initContainer : Container
  contentVolume : Volume
  contentVolumeMount : VolumeMount
  contentFolder : String

def gitContentFolder (i : ℕ) (gitSync : GitSync) : String :=
  let gitFolder := gitSync.gitFolder.toList
  let relativeGitFolder := (stripRoot gitFolder).getD gitFolder
  String.ofList (pushPath (pushPath (indexed mountPathPrefix i).toList gitSyncLink.toList)
    relativeGitFolder)

def generate (resolvedProductImage : ResolvedProductImage) (extraEnvVars : List EnvVar)
    (extraVolumeMounts : List VolumeMount) (logVolumeName : String)
    (containerLogConfig : ContainerLogConfig) (gitSync : GitSync) (i : ℕ) :
    Except Error Generated := do
  let envVars ← credentialsEnvVars gitSync
  let envVars ← withExtraEnvVars envVars extraEnvVars
  let volumeMounts := containerVolumeMounts i extraVolumeMounts logVolumeName
  let container ← createGitSyncContainer (indexed containerNamePrefix i) resolvedProductImage
    gitSync false envVars volumeMounts containerLogConfig
  let initContainer ← createGitSyncContainer (indexed containerNamePrefix i ++ "-init")
    resolvedProductImage gitSync true envVars volumeMounts containerLogConfig
  return {
    container := container
    initContainer := initContainer
    contentVolume := ((VolumeBuilder.new (indexed volumeNamePrefix i)).emptyDir {}).build
    contentVolumeMount :=
      { name := indexed volumeNamePrefix i, mountPath := indexed mountPathPrefix i }
    contentFolder := gitContentFolder i gitSync }

/-- Generate the resources of all specifications, with their indices. -/
def new (gitSyncs : List GitSync) (resolvedProductImage : ResolvedProductImage)
    (extraEnvVars : List EnvVar) (extraVolumeMounts : List VolumeMount) (logVolumeName : String)
    (containerLogConfig : ContainerLogConfig) : Except Error GitSyncResources := do
  let generated ← gitSyncs.zipIdx.mapM fun spec =>
    generate resolvedProductImage extraEnvVars extraVolumeMounts logVolumeName containerLogConfig
      spec.1 spec.2
  return {
    gitSyncContainers := generated.map Generated.container
    gitSyncInitContainers := generated.map Generated.initContainer
    gitContentVolumes := generated.map Generated.contentVolume
    gitContentVolumeMounts := generated.map Generated.contentVolumeMount
    gitContentFolders := generated.map Generated.contentFolder }

/-! ### The same resources and errors in v1alpha2 -/

def Error.upgrade : Error → StackableOperator.GitSyncResources.Error
  | invalidContainerName source => .invalidContainerName source
  | invalidEnvVar source => .invalidEnvVar source
  | invalidEnvVarName source => .invalidEnvVarName source
  | invalidSecretKey source => .invalidSecretKey source
  | invalidSecretName source name => .invalidSecretName source name
  | addVolumeMount source => .addVolumeMount source

def Generated.upgrade (self : Generated) : StackableOperator.GitSyncResources.Generated where
  container := self.container
  initContainer := self.initContainer
  contentVolume := self.contentVolume
  contentVolumeMount := self.contentVolumeMount
  contentFolder := self.contentFolder
  sshVolume := none
  caCertVolume := none

/-- The resources without volumes for SSH keys and CA certificates. -/
def upgrade (self : GitSyncResources) : StackableOperator.GitSyncResources where
  gitSyncContainers := self.gitSyncContainers
  gitSyncInitContainers := self.gitSyncInitContainers
  gitContentVolumes := self.gitContentVolumes
  gitContentVolumeMounts := self.gitContentVolumeMounts
  gitContentFolders := self.gitContentFolders
  gitSshVolumes := []
  gitCaCertVolumes := []

/-- The TLS settings say what v1alpha1 does anyway: Git verifies the server with the certificates
that it trusts by default. -/
def KeepsTls (gitSync : GitSync) : Prop :=
  gitSync.tls.tls = none ∨
    (gitSync.tls.tls = some ⟨.server ⟨.webPki⟩⟩ ∧ gitSync.repo.scheme ≠ "http")

/-! ### Specifications that keep their resources -/

section MapError

variable {ε ε' ε'' α β : Type}

theorem mapError_bind (f : ε → ε') (x : Except ε α) (k : α → Except ε β) :
    (x >>= k).mapError f = x.mapError f >>= fun a => (k a).mapError f := by
  cases x <;> rfl

theorem mapError_mapError (f : ε → ε') (g : ε' → ε'') (x : Except ε α) :
    (x.mapError f).mapError g = x.mapError (g ∘ f) := by
  cases x <;> rfl

end MapError

theorem withSecretKeyRef_upgrade (envVars : EnvVarSet) (name secretName secretKey : String) :
    StackableOperator.GitSyncResources.withSecretKeyRef envVars name secretName secretKey =
      (withSecretKeyRef envVars name secretName secretKey).mapError Error.upgrade := by
  simp only [withSecretKeyRef, mapError_bind, mapError_mapError]
  rfl

theorem credentialsEnvVars_upgrade (i : ℕ) (gitSync : GitSync) :
    StackableOperator.GitSyncResources.credentialsEnvVars i gitSync.upgrade =
      (credentialsEnvVars gitSync).mapError Error.upgrade := by
  obtain ⟨repo, branch, gitFolder, depth, wait, gitSyncConf, credentialsSecret, tls⟩ := gitSync
  cases credentialsSecret with
  | none => rfl
  | some secretName =>
    simp only [StackableOperator.GitSyncResources.credentialsEnvVars, credentialsEnvVars,
      GitSync.upgrade, credentialsSecretToBasicAuth, Option.map_some, withSecretKeyRef_upgrade,
      mapError_bind]

theorem withExtraEnvVars_upgrade (envVars : EnvVarSet) (extraEnvVars : List EnvVar) :
    StackableOperator.GitSyncResources.withExtraEnvVars envVars extraEnvVars =
      (withExtraEnvVars envVars extraEnvVars).mapError Error.upgrade := by
  induction extraEnvVars generalizing envVars with
  | nil => rfl
  | cons extraEnvVar extraEnvVars ih =>
    unfold withExtraEnvVars StackableOperator.GitSyncResources.withExtraEnvVars at ih ⊢
    simp only [List.foldlM_cons, mapError_bind, mapError_mapError, ih]
    rfl

/-- Without a deactivated verification and without a CA certificate the scripts are the same. -/
theorem createGitSyncShellScript_upgrade (containerName : String) {gitSync : GitSync}
    (h : StackableOperator.GitSyncResources.deactivatesSslVerify gitSync.upgrade = false)
    (oneTime : Bool) (containerLogConfig : ContainerLogConfig) :
    StackableOperator.GitSyncResources.createGitSyncShellScript containerName gitSync.upgrade
        oneTime containerLogConfig none =
      createGitSyncShellScript containerName gitSync oneTime containerLogConfig := by
  have hconfig : StackableOperator.GitSyncResources.internalGitConfig gitSync.upgrade none =
      internalGitConfig := by
    unfold StackableOperator.GitSyncResources.internalGitConfig
    rw [h]
    rfl
  have hcommand : StackableOperator.GitSyncResources.gitSyncCommand gitSync.upgrade oneTime none =
      gitSyncCommand gitSync oneTime := by
    unfold StackableOperator.GitSyncResources.gitSyncCommand
      StackableOperator.GitSyncResources.args StackableOperator.GitSyncResources.gitConfig
    rw [hconfig]
    rfl
  unfold StackableOperator.GitSyncResources.createGitSyncShellScript
  rw [hcommand]
  rfl

theorem createGitSyncContainer_upgrade (containerName : String)
    (resolvedProductImage : ResolvedProductImage) {gitSync : GitSync}
    (h : StackableOperator.GitSyncResources.deactivatesSslVerify gitSync.upgrade = false)
    (oneTime : Bool) (envVars : EnvVarSet) (volumeMounts : List VolumeMount)
    (containerLogConfig : ContainerLogConfig) :
    StackableOperator.GitSyncResources.createGitSyncContainer containerName resolvedProductImage
        gitSync.upgrade oneTime envVars volumeMounts containerLogConfig none =
      (createGitSyncContainer containerName resolvedProductImage gitSync oneTime envVars
        volumeMounts containerLogConfig).mapError Error.upgrade := by
  unfold StackableOperator.GitSyncResources.createGitSyncContainer createGitSyncContainer
  rw [createGitSyncShellScript_upgrade containerName h]
  simp only [mapError_bind, mapError_mapError]
  rfl

section Generate

variable (resolvedProductImage : ResolvedProductImage) (extraEnvVars : List EnvVar)
  (extraVolumeMounts : List VolumeMount) (logVolumeName : String)
  (containerLogConfig : ContainerLogConfig)

/-- **Kept TLS settings keep the resources**, and the errors as well. -/
theorem generate_upgrade {gitSync : GitSync} (h : KeepsTls gitSync) (i : ℕ) :
    StackableOperator.GitSyncResources.generate resolvedProductImage extraEnvVars
        extraVolumeMounts logVolumeName containerLogConfig gitSync.upgrade i =
      ((generate resolvedProductImage extraEnvVars extraVolumeMounts logVolumeName
        containerLogConfig gitSync i).map Generated.upgrade).mapError Error.upgrade := by
  have htls : gitSync.upgrade.tls = gitSync.tls := rfl
  have hrepo : gitSync.upgrade.repo = gitSync.repo := rfl
  -- the kept TLS settings verify, and have no CA certificate
  have hdeactivates :
      StackableOperator.GitSyncResources.deactivatesSslVerify gitSync.upgrade = false := by
    unfold StackableOperator.GitSyncResources.deactivatesSslVerify
    obtain h | ⟨h, -⟩ := h <;> rw [htls, h] <;> rfl
  have hpath : StackableOperator.GitSyncResources.caCertPath i gitSync.upgrade = .ok none := by
    unfold StackableOperator.GitSyncResources.caCertPath
    obtain h | ⟨h, hscheme⟩ := h
    · rw [htls, h]
    · rw [htls, h, hrepo]
      exact if_pos hscheme
  have hclass : gitSync.upgrade.tls.tlsCaCertSecretClass = none := by
    unfold TlsClientDetails.tlsCaCertSecretClass
    obtain h | ⟨h, -⟩ := h <;> rw [htls, h]
  have hvolume : StackableOperator.GitSyncResources.caCertVolume i gitSync.upgrade = .ok none := by
    unfold StackableOperator.GitSyncResources.caCertVolume
    rw [hclass]
  -- the old version has no SSH credentials
  have hssh : StackableOperator.GitSyncResources.sshVolumeMounts i gitSync.upgrade = [] ∧
      StackableOperator.GitSyncResources.sshVolume i gitSync.upgrade = none := by
    have hcredentials : gitSync.upgrade.credentials =
        gitSync.credentialsSecret.map .basicAuthSecretName := rfl
    unfold StackableOperator.GitSyncResources.sshVolumeMounts
      StackableOperator.GitSyncResources.sshVolume
    rw [hcredentials]
    cases gitSync.credentialsSecret <;> exact ⟨rfl, rfl⟩
  -- so the volumes and the mounts are the same
  have hmounts : StackableOperator.GitSyncResources.containerVolumeMounts i gitSync.upgrade
      extraVolumeMounts logVolumeName =
        containerVolumeMounts i extraVolumeMounts logVolumeName := by
    unfold StackableOperator.GitSyncResources.containerVolumeMounts
      StackableOperator.GitSyncResources.caCertVolumeMounts
    rw [hclass, hssh.1, List.append_nil, List.append_nil]
    rfl
  -- both versions then build the same containers
  unfold StackableOperator.GitSyncResources.generate generate
  rw [credentialsEnvVars_upgrade, hpath, hvolume, hmounts, hssh.2]
  cases credentialsEnvVars gitSync with
  | error e => rfl
  | ok credentials =>
    simp only [Except.mapError, bind, Except.bind, withExtraEnvVars_upgrade]
    cases withExtraEnvVars credentials extraEnvVars with
    | error e => rfl
    | ok envVars =>
      simp only [createGitSyncContainer_upgrade _ _ hdeactivates]
      cases createGitSyncContainer (indexed containerNamePrefix i) resolvedProductImage gitSync
        false envVars (containerVolumeMounts i extraVolumeMounts logVolumeName)
        containerLogConfig with
      | error e => rfl
      | ok container =>
        simp only [Except.mapError]
        cases createGitSyncContainer (indexed containerNamePrefix i ++ "-init")
          resolvedProductImage gitSync true envVars
          (containerVolumeMounts i extraVolumeMounts logVolumeName) containerLogConfig <;> rfl

end Generate

/-! ### Specifications that change their resources -/

theorem length_intercalate_add {sep : String} {l : List String} (h : l ≠ []) :
    (sep.intercalate l).length + sep.length = (l.map fun s => s.length + sep.length).sum := by
  induction l with
  | nil => exact absurd rfl h
  | cons s l ih =>
    cases l with
    | nil => simp
    | cons s' l =>
      have ih := ih (by simp)
      rw [String.intercalate_cons_cons, List.map_cons, List.sum_cons, ← ih]
      simp only [String.length_append]
      omega

/-- The length of the options depends on a value only by its length. -/
theorem exists_length_options (m : BTreeMap String String) (k : String) :
    ∃ n, ∀ v, (" ".intercalate ((IterMap.iter (M := BTreeMap String)
      (IterMap.insert (M := BTreeMap String) m k v)).map fun e => e.1 ++ "=" ++ e.2)).length =
        n + v.length := by
  have hspace : " ".length = 1 := rfl
  have hequals : "=".length = 1 := rfl
  refine ⟨k.length + 1 + ((IterMap.iter (M := BTreeMap String) (BTreeMap.remove m k)).map
    fun e => e.1.length + 1 + e.2.length + 1).sum, fun v => ?_⟩
  have hperm := BTreeMap.perm_iter_insert m k v
  have hne : ((IterMap.iter (M := BTreeMap String)
      (IterMap.insert (M := BTreeMap String) m k v)).map fun e => e.1 ++ "=" ++ e.2) ≠ [] := by
    rw [Ne, List.map_eq_nil_iff]
    exact fun hnil => List.cons_ne_nil _ _ (hnil ▸ hperm).symm.eq_nil
  have hsum : (" ".intercalate _).length + " ".length = _ := length_intercalate_add hne
  rw [hspace, List.map_map, (hperm.map _).sum_eq] at hsum
  simp only [List.map_cons, List.sum_cons, Function.comp_def, String.length_append, hequals] at hsum
  omega

theorem iter_internalGitConfig :
    IterMap.iter (M := BTreeMap String) internalGitConfig =
      [(gitSyncSafeDirOption, gitSyncRootDir)] := by
  refine BTreeMap.iter_eq_of_sorted (by simp) fun k v => ?_
  exact IterMap.get?_collect (M := BTreeMap String) (by simp)

/-- With a deactivated verification, the Git config starts with an entry that says so. -/
theorem gitConfig_upgrade {gitSync : GitSync}
    (h : StackableOperator.GitSyncResources.deactivatesSslVerify gitSync.upgrade = true) :
    StackableOperator.GitSyncResources.gitConfig gitSync.upgrade none =
      gitSslVerify ++ ":false," ++ gitConfig gitSync := by
  have hconfig : StackableOperator.GitSyncResources.internalGitConfig gitSync.upgrade none =
      IterMap.insert (M := BTreeMap String) internalGitConfig gitSslVerify "false" := by
    unfold StackableOperator.GitSyncResources.internalGitConfig
    rw [h]
    rfl
  have hiter : IterMap.iter (M := BTreeMap String)
      (IterMap.insert (M := BTreeMap String) internalGitConfig gitSslVerify "false") =
        [(gitSslVerify, "false"), (gitSyncSafeDirOption, gitSyncRootDir)] := by
    refine BTreeMap.iter_eq_of_sorted
      (by simp only [List.map_cons, List.map_nil]; decide) fun k v => ?_
    by_cases hk : k = gitSslVerify
    · subst hk
      rw [IterMap.get?_insert_self]
      have hne : gitSslVerify ≠ gitSyncSafeDirOption := by decide
      simp [hne, eq_comm]
    · rw [IterMap.get?_insert_of_ne _ _ hk, ← IterMap.mem_iter, iter_internalGitConfig]
      simp [hk]
  unfold StackableOperator.GitSyncResources.gitConfig gitConfig
  rw [hconfig, hiter, iter_internalGitConfig]
  simp only [List.map_cons, List.map_nil, List.cons_append, List.nil_append]
  rw [String.intercalate_cons_cons, String.append_assoc, String.append_assoc, String.append_assoc]
  rfl

/-- With a deactivated verification the scripts are different. -/
theorem createGitSyncShellScript_ne (containerName : String) {gitSync : GitSync}
    (h : StackableOperator.GitSyncResources.deactivatesSslVerify gitSync.upgrade = true)
    (containerLogConfig : ContainerLogConfig) :
    StackableOperator.GitSyncResources.createGitSyncShellScript containerName gitSync.upgrade
        true containerLogConfig none ≠
      createGitSyncShellScript containerName gitSync true containerLogConfig := by
  obtain ⟨logging, hupgraded, horiginal⟩ : ∃ logging,
      StackableOperator.GitSyncResources.createGitSyncShellScript containerName gitSync.upgrade
        true containerLogConfig none =
          logging ++ StackableOperator.GitSyncResources.gitSyncCommand gitSync.upgrade true none ∧
      createGitSyncShellScript containerName gitSync true containerLogConfig =
        logging ++ gitSyncCommand gitSync true := ⟨_, rfl, rfl⟩
  rw [hupgraded, horiginal, Ne, String.append_right_inj]
  intro hcommand
  obtain ⟨n, hn⟩ := exists_length_options (IterMap.extend (M := BTreeMap String)
    (internalArgs gitSync true) (IterMap.collect (userDefinedArgs gitSync true))) "--git-config"
  have hoptions := congrArg String.length (String.append_right_inj _ |>.mp hcommand)
  have hconfig := congrArg String.length (gitConfig_upgrade h)
  have hupgrade := hn ("'" ++
    StackableOperator.GitSyncResources.gitConfig gitSync.upgrade none ++ "'")
  have hsame := hn ("'" ++ gitConfig gitSync ++ "'")
  have hlength := hupgrade.symm.trans (hoptions.trans hsame)
  have hadded : (gitSslVerify ++ ":false,").length = 21 := by decide
  simp only [String.length_append] at hlength hconfig hadded
  omega

/-- An item at the same place in two lists that are computed from a list. -/
theorem exists_of_forall₂ {α β γ δ : Type} {r : α → β → Prop} {s : α → γ → Prop} {f : β → δ}
    {g : γ → δ} {l : List α} {bs : List β} {cs : List γ} (hr : List.Forall₂ r l bs)
    (hs : List.Forall₂ s l cs) (heq : bs.map f = cs.map g) {a : α} (ha : a ∈ l) :
    ∃ b ∈ bs, ∃ c ∈ cs, r a b ∧ s a c ∧ f b = g c := by
  induction hr generalizing cs with
  | nil => exact absurd ha List.not_mem_nil
  | @cons a' b l bs hab hr ih =>
    obtain ⟨c, cs', hac, hs', rfl⟩ := List.forall₂_cons_left_iff.mp hs
    rw [List.map_cons, List.map_cons, List.cons.injEq] at heq
    obtain rfl | ha := List.mem_cons.mp ha
    · exact ⟨b, List.mem_cons_self, c, List.mem_cons_self, hab, hac, heq.1⟩
    · obtain ⟨b', hb', c', hc', h⟩ := ih hs' heq.2 ha
      exact ⟨b', List.mem_cons_of_mem _ hb', c', List.mem_cons_of_mem _ hc', h⟩

section New

variable {resolvedProductImage : ResolvedProductImage} {extraEnvVars : List EnvVar}
  {extraVolumeMounts : List VolumeMount} {logVolumeName : String}
  {containerLogConfig : ContainerLogConfig}

theorem args_createGitSyncContainer {containerName : String} {gitSync : GitSync} {oneTime : Bool}
    {envVars : EnvVarSet} {volumeMounts : List VolumeMount} {container : Container}
    (h : createGitSyncContainer containerName resolvedProductImage gitSync oneTime envVars
      volumeMounts containerLogConfig = .ok container) :
    container.args =
      some [createGitSyncShellScript containerName gitSync oneTime containerLogConfig] := by
  obtain ⟨builder, hbuilder, hrest⟩ := bind_eq_ok.mp h
  obtain ⟨mounted, hmounted, hbuild⟩ := bind_eq_ok.mp hrest
  have hadd := mapError_eq_ok_iff.mp hmounted
  obtain rfl := ContainerBuilder.eq_of_new (mapError_eq_ok_iff.mp hbuilder)
  rw [ContainerBuilder.eq_of_addVolumeMounts_eq_ok hadd] at hbuild
  rw [← Except.ok.inj hbuild]
  rfl

theorem args_initContainer {gitSync : GitSync} {i : ℕ} {generated : Generated}
    (h : generate resolvedProductImage extraEnvVars extraVolumeMounts logVolumeName
      containerLogConfig gitSync i = .ok generated) :
    generated.initContainer.args = some [createGitSyncShellScript
      (indexed containerNamePrefix i ++ "-init") gitSync true containerLogConfig] := by
  obtain ⟨credentials, -, h⟩ := bind_eq_ok.mp h
  obtain ⟨envVars, -, h⟩ := bind_eq_ok.mp h
  obtain ⟨container, -, h⟩ := bind_eq_ok.mp h
  obtain ⟨initContainer, hinitContainer, h⟩ := bind_eq_ok.mp h
  rw [← Except.ok.inj h]
  exact args_createGitSyncContainer hinitContainer

/-- **The same resources need kept TLS settings.** -/
theorem keepsTls_of_generate_upgrade {gitSync : GitSync} {i : ℕ} {generated : Generated}
    {upgraded : StackableOperator.GitSyncResources.Generated}
    (h : generate resolvedProductImage extraEnvVars extraVolumeMounts logVolumeName
      containerLogConfig gitSync i = .ok generated)
    (hupgraded : StackableOperator.GitSyncResources.generate resolvedProductImage extraEnvVars
      extraVolumeMounts logVolumeName containerLogConfig gitSync.upgrade i = .ok upgraded)
    (hinitContainer : upgraded.initContainer = generated.initContainer)
    (hcaCertVolume : upgraded.caCertVolume = none) : KeepsTls gitSync := by
  obtain ⟨credentials, -, h₁⟩ := bind_eq_ok.mp hupgraded
  obtain ⟨envVars, -, h₂⟩ := bind_eq_ok.mp h₁
  obtain ⟨path, hpath, h₃⟩ := bind_eq_ok.mp h₂
  obtain ⟨container, -, h₄⟩ := bind_eq_ok.mp h₃
  obtain ⟨initContainer, hcreated, h₅⟩ := bind_eq_ok.mp h₄
  obtain ⟨volume, hvolume, h₆⟩ := bind_eq_ok.mp h₅
  rw [← Except.ok.inj h₆] at hinitContainer hcaCertVolume
  obtain rfl : volume = none := hcaCertVolume
  obtain rfl : initContainer = generated.initContainer := hinitContainer
  have htls : gitSync.upgrade.tls = gitSync.tls := rfl
  have hrepo : gitSync.upgrade.repo = gitSync.repo := rfl
  unfold StackableOperator.GitSyncResources.caCertPath at hpath
  rw [htls, hrepo] at hpath
  rcases hsettings : gitSync.tls.tls with _ | ⟨_ | ⟨_ | secretClass⟩⟩
  · exact .inl hsettings
  · -- the script deactivates the verification
    have hdeactivates :
        StackableOperator.GitSyncResources.deactivatesSslVerify gitSync.upgrade = true := by
      unfold StackableOperator.GitSyncResources.deactivatesSslVerify
      rw [htls, hsettings]
      rfl
    rw [hsettings] at hpath
    obtain rfl : none = path := Except.ok.inj hpath
    have hargs := (StackableOperator.GitSyncResources.createGitSyncContainer_eq_ok hcreated).2.1
    rw [args_initContainer h] at hargs
    exact absurd (List.cons.inj (Option.some.inj hargs)).1.symm
      (createGitSyncShellScript_ne _ hdeactivates containerLogConfig)
  · -- the scheme was checked
    rw [hsettings] at hpath
    refine .inr ⟨hsettings, fun hscheme => ?_⟩
    dsimp only at hpath
    rw [if_neg (not_not.mpr hscheme)] at hpath
    cases hpath
  · -- there is a volume for the CA certificate
    unfold StackableOperator.GitSyncResources.caCertVolume at hvolume
    have hclass : gitSync.upgrade.tls.tlsCaCertSecretClass = some secretClass := by
      unfold TlsClientDetails.tlsCaCertSecretClass
      rw [htls, hsettings]
    rw [hclass] at hvolume
    dsimp only at hvolume
    split at hvolume
    · exact absurd (Except.ok.inj hvolume) (by simp)
    · cases hvolume

/-- The specifications with their indices. -/
theorem zipIdx_map_upgrade (gitSyncs : List GitSync) :
    (gitSyncs.map GitSync.upgrade).zipIdx =
      gitSyncs.zipIdx.map fun spec => (spec.1.upgrade, spec.2) :=
  List.zipIdx_map

/-- A list of computations with upgraded results. -/
theorem mapM_upgrade {α β γ : Type} {l : List α} {f : α → Except Error β}
    {g : α → Except StackableOperator.GitSyncResources.Error γ} {k : β → γ}
    (h : ∀ a ∈ l, g a = ((f a).map k).mapError Error.upgrade) :
    l.mapM g = ((l.mapM f).map (List.map k)).mapError Error.upgrade := by
  induction l with
  | nil => rfl
  | cons a l ih =>
    rw [List.mapM_cons, List.mapM_cons, h a List.mem_cons_self,
      ih fun b hb => h b (List.mem_cons_of_mem a hb)]
    cases f a with
    | error e => rfl
    | ok b => cases l.mapM f <;> rfl

/-- Specifications that keep their TLS settings keep their resources and errors. -/
theorem new_upgrade {gitSyncs : List GitSync} (h : ∀ gitSync ∈ gitSyncs, KeepsTls gitSync) :
    StackableOperator.GitSyncResources.new (gitSyncs.map GitSync.upgrade) resolvedProductImage
        extraEnvVars extraVolumeMounts logVolumeName containerLogConfig =
      ((new gitSyncs resolvedProductImage extraEnvVars extraVolumeMounts logVolumeName
        containerLogConfig).map upgrade).mapError Error.upgrade := by
  have hgenerate := mapM_upgrade (l := gitSyncs.zipIdx) (k := Generated.upgrade)
    (f := fun spec => generate resolvedProductImage extraEnvVars extraVolumeMounts logVolumeName
      containerLogConfig spec.1 spec.2)
    (g := fun spec => StackableOperator.GitSyncResources.generate resolvedProductImage extraEnvVars
      extraVolumeMounts logVolumeName containerLogConfig spec.1.upgrade spec.2)
    fun spec hspec => generate_upgrade _ _ _ _ _ (h _ (List.fst_mem_of_mem_zipIdx hspec)) _
  unfold StackableOperator.GitSyncResources.new new
  rw [zipIdx_map_upgrade, List.mapM_map]
  dsimp only [Function.comp_def]
  rw [hgenerate]
  cases gitSyncs.zipIdx.mapM fun spec => generate resolvedProductImage extraEnvVars
    extraVolumeMounts logVolumeName containerLogConfig spec.1 spec.2 with
  | error e => rfl
  | ok generated =>
    simp [Except.map, Except.mapError, bind, Except.bind, pure, Except.pure, upgrade,
      Generated.upgrade, Function.comp_def]

end New

/-- **When an upgrade preserves the resources**: the specifications of v1alpha1 and their
conversions to v1alpha2 give the same resources iff every specification has no TLS settings, or
the default ones and a repository that is not accessed by HTTP. For such specifications, errors
are preserved as well. -/
theorem new_upgrade_iff (gitSyncs : List GitSync) (resolvedProductImage : ResolvedProductImage)
    (extraEnvVars : List EnvVar) (extraVolumeMounts : List VolumeMount) (logVolumeName : String)
    (containerLogConfig : ContainerLogConfig) :
    (∀ resources, new gitSyncs resolvedProductImage extraEnvVars extraVolumeMounts logVolumeName
        containerLogConfig = .ok resources →
      (StackableOperator.GitSyncResources.new (gitSyncs.map GitSync.upgrade) resolvedProductImage
          extraEnvVars extraVolumeMounts logVolumeName containerLogConfig =
            .ok resources.upgrade ↔
        ∀ gitSync ∈ gitSyncs, KeepsTls gitSync)) ∧
    ∀ e, new gitSyncs resolvedProductImage extraEnvVars extraVolumeMounts logVolumeName
        containerLogConfig = .error e → (∀ gitSync ∈ gitSyncs, KeepsTls gitSync) →
      StackableOperator.GitSyncResources.new (gitSyncs.map GitSync.upgrade) resolvedProductImage
        extraEnvVars extraVolumeMounts logVolumeName containerLogConfig = .error e.upgrade := by
  refine ⟨fun resources hnew => ⟨fun hupgraded gitSync hmem => ?_, fun hkeeps => ?_⟩,
    fun e hnew hkeeps => ?_⟩
  · obtain ⟨generated, hgenerated, hresources⟩ := bind_eq_ok.mp hnew
    obtain ⟨upgraded, hgenerated', hresources'⟩ := bind_eq_ok.mp hupgraded
    rw [← Except.ok.inj hresources] at hresources'
    have heq := Except.ok.inj hresources'
    rw [zipIdx_map_upgrade, mapM_eq_ok_iff, List.forall₂_map_left_iff] at hgenerated'
    obtain ⟨i, hget⟩ := List.mem_iff_getElem?.mp hmem
    have hi : (gitSync, i) ∈ gitSyncs.zipIdx := List.mk_mem_zipIdx_iff_getElem?.mpr hget
    obtain ⟨b, hb, c, -, hb', hc, hcontainer⟩ := exists_of_forall₂ hgenerated'
      (mapM_eq_ok_iff.mp hgenerated)
      (congrArg StackableOperator.GitSyncResources.gitSyncInitContainers heq) hi
    refine keepsTls_of_generate_upgrade hc hb' hcontainer ?_
    exact List.filterMap_eq_nil_iff.mp
      (congrArg StackableOperator.GitSyncResources.gitCaCertVolumes heq) b hb
  · rw [new_upgrade hkeeps, hnew]
    rfl
  · rw [new_upgrade hkeeps, hnew]
    rfl

end GitSyncResources

end StackableOperator.V1alpha1
