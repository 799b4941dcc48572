import Mathlib
import StackableOperator.ForMathlib.IterMap

/-!
# Logging of shell commands

`captureShellOutput` is a shell command that sends the output of all commands after it to the
console and to files, according to the log configuration of a container.
-/

namespace StackableOperator

inductive LogLevel : Type
  | trace
  | debug
  | info
  | warn
  | error
  | fatal
  /-- Turn logging off. -/
  | none
  deriving DecidableEq

namespace LogLevel

/-- The position in the order of the levels. -/
def toNat : LogLevel → ℕ
  | .trace => 0
  | .debug => 1
  | .info => 2
  | .warn => 3
  | .error => 4
  | .fatal => 5
  | .none => 6

theorem toNat_injective : Function.Injective toNat := by
  intro a b
  cases a <;> cases b <;> simp [toNat]

instance : LinearOrder LogLevel := LinearOrder.lift' toNat toNat_injective

instance : Inhabited LogLevel := ⟨.info⟩

end LogLevel

structure LoggerConfig where
  level : LogLevel

structure AppenderConfig where
  level : Option LogLevel

structure AutomaticContainerLogConfig where
  loggers : BTreeMap String LoggerConfig
  console : Option AppenderConfig
  file : Option AppenderConfig

inductive ContainerLogConfigChoice : Type
  | custom (configMap : String)
  | automatic (config : AutomaticContainerLogConfig)

structure ContainerLogConfig where
  choice : Option ContainerLogConfigChoice

def AutomaticContainerLogConfig.rootLogLevel (self : AutomaticContainerLogConfig) : LogLevel :=
  ((IterMap.get? (M := BTreeMap String) self.loggers "ROOT").map LoggerConfig.level).getD default

def captureShellOutput (logDir container : String) (logConfig : AutomaticContainerLogConfig) :
    String :=
  let appenderLogLevel (appender : Option AppenderConfig) : LogLevel :=
    max logConfig.rootLogLevel ((appender.bind AppenderConfig.level).getD default)
  let consoleLogLevel := appenderLogLevel logConfig.console
  let fileLogLevel := appenderLogLevel logConfig.file
  let logFileDir := logDir ++ "/" ++ container
  let stdoutRedirect :=
    match decide (consoleLogLevel ≤ .info), decide (fileLogLevel ≤ .info) with
    | true, true => " > >(tee " ++ logFileDir ++ "/container.stdout.log)"
    | true, false => ""
    | false, true => " > " ++ logFileDir ++ "/container.stdout.log"
    | false, false => " > /dev/null"
  let stderrRedirect :=
    match decide (consoleLogLevel ≤ .error), decide (fileLogLevel ≤ .error) with
    | true, true => " 2> >(tee " ++ logFileDir ++ "/container.stderr.log >&2)"
    | true, false => ""
    | false, true => " 2> " ++ logFileDir ++ "/container.stderr.log"
    | false, false => " 2> /dev/null"
  let mkdir := if fileLogLevel ≤ .error then ["mkdir --parents " ++ logFileDir] else []
  let exec :=
    if stdoutRedirect = "" ∧ stderrRedirect = "" then ":"
    else "exec" ++ stdoutRedirect ++ stderrRedirect
  " && ".intercalate (mkdir ++ [exec])

end StackableOperator
