import Mathlib
import StackableOperator.Commons.TlsVerification
import StackableOperator.ProductLogging.Framework

/-!
# The shell scripts of git-sync

A `GitSync` describes a Git repository that is synchronized by a container. The container runs a
shell script with the options of the git-sync command pasted into it.
-/

namespace StackableOperator

/-! ### Specifications -/

/-- A parsed URL, with its text. -/
structure Url where
  scheme : String
  asStr : String

inductive Credentials : Type
  | basicAuthSecretName (name : String)
  | sshPrivateKeySecretName (name : String)
  deriving DecidableEq

theorem twentySecs_lt : 20 < 2 ^ 64 := by decide

structure GitSync where
  repo : Url
  branch : String := "main"
  /-- The path of a folder in the repository -/
  gitFolder : String := "/"
  depth : UInt32 := 1
  wait : Duration := .fromSecs 20 twentySecs_lt
  gitSyncConf : BTreeMap String String := ∅
  credentials : Option Credentials := none
  tls : TlsClientDetails := ⟨some ⟨.server ⟨.webPki⟩⟩⟩

/-! ### Scripts -/

/-- Two shell functions that wait for a background process. -/
def commonBashTrapFunctions : String :=
  "\n".intercalate
    ["", "prepare_signal_handlers()", "\x7b", "    unset term_child_pid",
      "    unset term_kill_needed", "    trap 'handle_term_signal' TERM", "\x7d", "",
      "handle_term_signal()", "\x7b", "    if [ \"$\x7bterm_child_pid\x7d\" ]; then",
      "        kill -TERM \"$\x7bterm_child_pid\x7d\" 2>/dev/null", "    else",
      "        term_kill_needed=\"yes\"", "    fi", "\x7d", "", "wait_for_termination()", "\x7b",
      "    set +e", "    term_child_pid=$1", "    if [[ -v term_kill_needed ]]; then",
      "        kill -TERM \"$\x7bterm_child_pid\x7d\" 2>/dev/null", "    fi",
      "    wait $\x7bterm_child_pid\x7d 2>/dev/null", "    trap - TERM",
      "    wait $\x7bterm_child_pid\x7d 2>/dev/null", "    set -e", "\x7d", ""]

namespace GitSyncResources

def gitSyncSafeDirOption : String := "safe.directory"
def gitSyncRootDir : String := "/tmp/git"
def gitSyncLink : String := "current"
def gitSslCaInfoConfigKey : String := "http.sslCAInfo"
def gitSslVerify : String := "http.sslverify"
def logVolumeMountPath : String := "/stackable/log"

/-- The options that are set internally, in the order of insertion. -/
def internalArgs (gitSync : GitSync) (oneTime : Bool) : BTreeMap String String :=
  IterMap.collect
    [("--repo", gitSync.repo.asStr), ("--ref", gitSync.branch),
      ("--depth", toString gitSync.depth.toNat), ("--period", toString gitSync.wait.asSecs ++ "s"),
      ("--link", gitSyncLink), ("--root", gitSyncRootDir),
      ("--one-time", if oneTime then "true" else "false")]

/-- The certificate check is deactivated if the user has explicitly set the verification to none. -/
def deactivatesSslVerify (gitSync : GitSync) : Bool :=
  gitSync.tls.tls.map Tls.verification = some .none

def internalGitConfig (gitSync : GitSync) (caCertPath : Option String) :
    BTreeMap String String :=
  let config : BTreeMap String String := IterMap.collect [(gitSyncSafeDirOption, gitSyncRootDir)]
  let config := match caCertPath with
    | some path => IterMap.insert (M := BTreeMap String) config gitSslCaInfoConfigKey path
    | none => config
  if deactivatesSslVerify gitSync then
    IterMap.insert (M := BTreeMap String) config gitSslVerify "false"
  else config

/-- The user-defined Git config is just appended. -/
def gitConfig (gitSync : GitSync) (caCertPath : Option String) : String :=
  ",".intercalate
    ((IterMap.iter (M := BTreeMap String) (internalGitConfig gitSync caCertPath)).map
      (fun e => e.1 ++ ":" ++ e.2) ++
      (IterMap.get? (M := BTreeMap String) gitSync.gitSyncConf "--git-config").toList)

/-- The user-defined options without the ones that are internally defined -/
def userDefinedArgs (gitSync : GitSync) (oneTime : Bool) : List (String × String) :=
  (IterMap.iter (M := BTreeMap String) (BTreeMap.remove gitSync.gitSyncConf "--git-config")).filter
    fun e => (IterMap.get? (M := BTreeMap String) (internalArgs gitSync oneTime) e.1).isNone

def args (gitSync : GitSync) (oneTime : Bool) (caCertPath : Option String) :
    BTreeMap String String :=
  IterMap.insert (M := BTreeMap String)
    (IterMap.extend (M := BTreeMap String) (internalArgs gitSync oneTime)
      (IterMap.collect (userDefinedArgs gitSync oneTime)))
    "--git-config" ("'" ++ gitConfig gitSync caCertPath ++ "'")

def gitSyncCommand (gitSync : GitSync) (oneTime : Bool) (caCertPath : Option String) : String :=
  let argsString := " ".intercalate
    ((IterMap.iter (M := BTreeMap String) (args gitSync oneTime caCertPath)).map
      fun e => e.1 ++ "=" ++ e.2)
  "/stackable/git-sync " ++ argsString

def createGitSyncShellScript (containerName : String) (gitSync : GitSync) (oneTime : Bool)
    (containerLogConfig : ContainerLogConfig) (caCertPath : Option String) : String :=
  let shellScript :=
    match containerLogConfig.choice with
    | some (.automatic logConfig) =>
      captureShellOutput logVolumeMountPath containerName logConfig ++ "\n"
    | _ => ""
  if oneTime then
    shellScript ++ gitSyncCommand gitSync oneTime caCertPath
  else
    -- the command runs in the background
    shellScript ++ commonBashTrapFunctions ++ "\nprepare_signal_handlers\n" ++
      gitSyncCommand gitSync oneTime caCertPath ++ " &\nwait_for_termination $!"

end GitSyncResources

end StackableOperator
