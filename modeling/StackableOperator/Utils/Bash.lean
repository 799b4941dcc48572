import Mathlib
import StackableOperator.Crd.GitSync.Script
import StackableOperator.Machines.ShellJobs

/-!
# Waiting for a background process

The shell functions that pass a signal on to a background process and wait until it has
terminated. `commonBashTrapFunctions_eq` says that they are what the text of the functions reads,
and `createGitSyncShellScript_eq` that a synchronization in the background is run by `script`.

A signal can arrive and the process can end at any time. `Run.guarantee` is about all orders in
which this happens. A signal that arrives after the trap was set reaches the process, and the
functions do not return before the process has terminated. There is one exception: the
variable `term_child_pid` is not set at first, and with `set -u` a signal that arrives before it is
set makes the trap fail and ends the shell.
-/

namespace StackableOperator.Bash

open ShellJobs

/-! ### The functions -/

def prepareSignalHandlers : List Command :=
  [.unset "term_child_pid", .unset "term_kill_needed", .trap "handle_term_signal"]

def handleTermSignal : List Command :=
  [.ifNonempty "term_child_pid" (.kill "term_child_pid")
    (.assign "term_kill_needed" (.literal "yes"))]

def waitForTermination : List Command :=
  [.setErrexit false, .assign "term_child_pid" .argument,
    .ifSet "term_kill_needed" (.kill "term_child_pid"), .wait "term_child_pid", .untrap,
    .wait "term_child_pid", .setErrexit true]

/-- The functions with their names. -/
def functionTable : List (String × List Command) :=
  [("prepare_signal_handlers", prepareSignalHandlers), ("handle_term_signal", handleTermSignal),
    ("wait_for_termination", waitForTermination)]

def functions (name : String) : List Command := (functionTable.lookup name).getD []

/-- Run a command in the background and wait for it. -/
def script (command : String) : List Command :=
  [.call "prepare_signal_handlers" none, .background command,
    .call "wait_for_termination" (some .lastBackground)]

/-- **The text of the functions.** -/
theorem commonBashTrapFunctions_eq :
    commonBashTrapFunctions = "\n".intercalate
      ((functionTable.flatMap fun f => "" :: Command.functionLines f.1 f.2) ++ [""]) := rfl

/-- **The text of the script** for a synchronization in the background. -/
theorem createGitSyncShellScript_eq (containerName : String) (gitSync : GitSync)
    (containerLogConfig : ContainerLogConfig) (caCertPath : Option String) :
    ∃ logging, GitSyncResources.createGitSyncShellScript containerName gitSync false
      containerLogConfig caCertPath = logging ++ commonBashTrapFunctions ++ "\n" ++
        "\n".intercalate
          ((script (GitSyncResources.gitSyncCommand gitSync false caCertPath)).flatMap
            Command.lines) := by
  obtain ⟨logging, h⟩ : ∃ logging, GitSyncResources.createGitSyncShellScript containerName gitSync
      false containerLogConfig caCertPath = logging ++ commonBashTrapFunctions ++
        "\nprepare_signal_handlers\n" ++
        GitSyncResources.gitSyncCommand gitSync false caCertPath ++
        " &\nwait_for_termination $!" := ⟨_, rfl⟩
  refine ⟨logging, h.trans ?_⟩
  have hprepare : "\nprepare_signal_handlers\n" = "\n" ++ ("prepare_signal_handlers" ++ "\n") := rfl
  have hwait : " &\nwait_for_termination $!" = " &" ++ ("\n" ++ "wait_for_termination $!") := rfl
  have hlines : (script (GitSyncResources.gitSyncCommand gitSync false caCertPath)).flatMap
      Command.lines = ["prepare_signal_handlers",
        GitSyncResources.gitSyncCommand gitSync false caCertPath ++ " &",
        "wait_for_termination $!"] := rfl
  rw [hlines, hprepare, hwait]
  simp only [String.intercalate_cons_cons, String.intercalate_singleton, String.append_assoc]

/-! ### Runs -/

/-- The shell with the script, and what has happened to it. -/
structure Run where
  shell : Shell
  /-- A signal arrived while the trap was set. -/
  received : Bool
  /-- A signal arrived while the trap was set and the process id was not. -/
  early : Bool

/-- What happens next. -/
inductive Event : Type
  | shell
  | term
  | jobExits (success : Bool)

namespace Run

section

variable (options : Options) (pid : ℕ) (command : String)

/-- The shell at the start of the script, with any variables and settings. -/
def start (vars : String → Option String) (argument lastBackground : String) (errexit : Bool) :
    Run where
  shell := {
    commands := script command
    vars := vars
    argument := argument
    lastBackground := lastBackground
    handler := none
    pending := false
    errexit := errexit
    waiting := false
    job := .notStarted
    status := .running }
  received := false
  early := false

def next (run : Run) : Event → Run
  | .shell => { run with shell := (run.shell.step functions options (toString pid)).getD run.shell }
  | .term =>
    let trapped := decide (run.shell.status = .running) && run.shell.handler.isSome
    { shell := run.shell.term options
      received := run.received || trapped
      early := run.early || (trapped && (run.shell.vars "term_child_pid").isNone) }
  | .jobExits success => { run with shell := run.shell.jobExits success }

/-- A run through any events. -/
def after (run : Run) (events : List Event) : Run := events.foldl (next options pid) run

end

/-! ### Control points -/

/-- The command of the script that is executed next. -/
inductive Point : Type
  | callPrepare
  | unsetChild
  | unsetNeeded
  | trap
  | background
  | callWait
  | setErrexit
  | assign
  | test
  | kill
  | wait
  | untrap
  | waitAgain
  | resetErrexit
  | done
  deriving DecidableEq

namespace Point

/-- What is still to be executed of the script. -/
def commands (command : String) : Point → List Command
  | callPrepare => script command
  | unsetChild => prepareSignalHandlers ++ (script command).drop 1
  | unsetNeeded => prepareSignalHandlers.drop 1 ++ (script command).drop 1
  | trap => prepareSignalHandlers.drop 2 ++ (script command).drop 1
  | background => (script command).drop 1
  | callWait => (script command).drop 2
  | setErrexit => waitForTermination
  | assign => waitForTermination.drop 1
  | test => waitForTermination.drop 2
  | kill => .kill "term_child_pid" :: waitForTermination.drop 3
  | wait => waitForTermination.drop 3
  | untrap => waitForTermination.drop 4
  | waitAgain => waitForTermination.drop 5
  | resetErrexit => waitForTermination.drop 6
  | done => []

/-- The process id is not in the variable, but it has been unset. -/
def isUnset : Point → Bool
  | unsetNeeded | trap | background | callWait | setErrexit | assign => true
  | _ => false

/-- The process id is in the variable. -/
def isSet : Point → Bool
  | test | kill | wait | untrap | waitAgain | resetErrexit | done => true
  | _ => false

def isTrapped : Point → Bool
  | background | callWait | setErrexit | assign | test | kill | wait | untrap => true
  | _ => false

def isStarted : Point → Bool
  | callWait | setErrexit | assign | test | kill | wait | untrap | waitAgain | resetErrexit
  | done => true
  | _ => false

/-- A failing command does not end the shell. -/
def toleratesErrors : Point → Bool
  | assign | test | kill | wait | untrap | waitAgain | resetErrexit => true
  | _ => false

/-- The commands of traps that can be left to execute. -/
def trapCommands (p : Point) : List Command :=
  handleTermSignal ++
    if p.isSet then [.kill "term_child_pid"]
    else [.assign "term_kill_needed" (.literal "yes")]

theorem isUnset_of_isTrapped {p : Point} (h : p.isTrapped = true) (hset : p.isSet = false) :
    p.isUnset = true := by
  cases p <;> first | rfl | exact absurd h (by decide) | exact absurd hset (by decide)

theorem toleratesErrors_of_isTrapped {p : Point} (h : p.isTrapped = true)
    (hset : p.isSet = true) : p.toleratesErrors = true := by
  cases p <;> first | rfl | exact absurd h (by decide) | exact absurd hset (by decide)

theorem isStarted_of_isSet {p : Point} (hset : p.isSet = true) : p.isStarted = true := by
  cases p <;> first | rfl | cases hset

end Point

/-- The state of the shell before it executes a command of the script, where the commands of traps
may come first. -/
structure Inv (options : Options) (pid : ℕ) (command : String) (run : Run) (p : Point)
    (traps : List Command) : Prop where
  commands : run.shell.commands = traps ++ p.commands command
  status : run.shell.status = .running
  handler : run.shell.handler = if p.isTrapped then some "handle_term_signal" else none
  trapped : run.shell.pending = true ∨ traps ≠ [] → p.isTrapped = true ∧
    (p.isSet = false → run.early = true)
  mem_traps : ∀ c ∈ traps, c ∈ p.trapCommands
  child_unset : p.isUnset = true → run.shell.vars "term_child_pid" = none
  child_set : p.isSet = true → run.shell.vars "term_child_pid" = some (toString pid)
  notStarted : p.isStarted = false → run.shell.job = .notStarted
  started : p.isStarted = true → run.shell.job ≠ .notStarted ∧
    run.shell.lastBackground = toString pid
  argument : p = .setErrexit ∨ p = .assign → run.shell.argument = toString pid
  errexit : p.toleratesErrors = true → run.shell.errexit = false
  waiting : run.shell.waiting = true → traps = [] ∧ (p = .wait ∨ p = .waitAgain)
  ended : p = .resetErrexit ∨ p = .done → ∃ success, run.shell.job = .exited success
  /-- A signal that arrived is not forgotten. -/
  received : run.received = true → run.shell.job.Settled ∨ run.shell.pending = true ∨ traps ≠ [] ∨
    p = .kill ∨ (run.shell.vars "term_kill_needed" ≠ none ∧
      (p.isTrapped = true ∧ p.isSet = false ∨ p = .test))
  /-- With `set -u` the trap of an early signal ends the shell before the process id is set. -/
  early : options.nounset = true → p.isSet = false →
    (run.early = true → run.shell.pending = true ∨ traps ≠ []) ∧ ∀ c ∈ traps, c ∈ handleTermSignal
  early_set : options.nounset = true → p.isSet = true → run.early = false

/-- The shell was killed by a signal without a trap. -/
structure Killed (options : Options) (run : Run) : Prop where
  status : run.shell.status = .killed
  isInit : options.isInit = false
  received : run.received = true → run.shell.job.Settled
  early : options.nounset = true → run.early = false

/-- What holds at any time. -/
def Safe (options : Options) (pid : ℕ) (command : String) (run : Run) : Prop :=
  Killed options run ∨
    (run.shell.status = .exited ∧ options.nounset = true ∧ run.early = true) ∨
    ∃ p traps, Inv options pid command run p traps

variable {options : Options} {pid : ℕ} {command : String} {run : Run}

theorem safe_start (vars : String → Option String) (argument lastBackground : String)
    (errexit : Bool) :
    Safe options pid command (start command vars argument lastBackground errexit) := by
  refine .inr (.inr ⟨.callPrepare, [], ?_⟩)
  constructor <;> simp [start, Point.commands, Point.isTrapped, Point.isUnset, Point.isSet,
    Point.isStarted, Point.toleratesErrors]

theorem Inv.term {p : Point} {traps : List Command}
    (h : Inv options pid command run p traps) :
    Safe options pid command (run.next options pid .term) := by
  have hhandler := h.handler
  cases hp : p.isTrapped with
  | false =>
    rw [hp] at hhandler
    by_cases hinit : options.isInit = true
    · have hsame : run.next options pid .term = run := by
        simp [next, Shell.term, h.status, hhandler, hinit]
      rw [hsame]
      exact .inr (.inr ⟨p, traps, h⟩)
    · have hinit : options.isInit = false := by simpa using hinit
      have hnext : run.next options pid .term =
          { run with shell := { run.shell with status := .killed } } := by
        simp [next, Shell.term, h.status, hhandler, hinit]
      have hnone : ¬ (run.shell.pending = true ∨ traps ≠ []) := fun htrap =>
        absurd (h.trapped htrap).1 (by simp [hp])
      rw [hnext]
      refine .inl ⟨rfl, hinit, fun hreceived => ?_, fun hnounset => ?_⟩
      · -- without a trap, nothing is left to be done about a signal
        obtain hsettled | hpending | htraps | rfl | ⟨-, ⟨htrapped, -⟩ | rfl⟩ := h.received hreceived
        · exact hsettled
        · exact absurd (.inl hpending) hnone
        · exact absurd (.inr htraps) hnone
        · cases hp
        · rw [hp] at htrapped
          cases htrapped
        · cases hp
      · cases hset : p.isSet with
        | true => exact h.early_set hnounset hset
        | false =>
          rw [← Bool.not_eq_true]
          exact fun hearly => hnone ((h.early hnounset hset).1 hearly)
  | true =>
    rw [hp] at hhandler
    have hunset : p.isSet = false → run.shell.vars "term_child_pid" = none := fun hset =>
      h.child_unset (Point.isUnset_of_isTrapped hp hset)
    have hnext : run.next options pid .term =
        { shell := { run.shell with pending := true }
          received := true
          early := run.early || (run.shell.vars "term_child_pid").isNone } := by
      simp [next, Shell.term, h.status, hhandler]
    rw [hnext]
    refine .inr (.inr ⟨p, traps, ?_⟩)
    exact {
      commands := h.commands
      status := h.status
      handler := h.handler
      trapped := fun _ => ⟨hp, fun hset => by simp [hunset hset]⟩
      mem_traps := h.mem_traps
      child_unset := h.child_unset
      child_set := h.child_set
      notStarted := h.notStarted
      started := h.started
      argument := h.argument
      errexit := h.errexit
      waiting := h.waiting
      ended := h.ended
      received := fun _ => .inr (.inl rfl)
      early := fun hnounset hset => ⟨fun _ => .inl rfl, (h.early hnounset hset).2⟩
      early_set := fun hnounset hset => by simp [h.early_set hnounset hset, h.child_set hset] }

theorem Inv.jobExits {p : Point} {traps : List Command} (h : Inv options pid command run p traps)
    (success : Bool) :
    Inv options pid command (run.next options pid (.jobExits success)) p traps := by
  have hjob : (run.shell.job ≠ .notStarted → (run.shell.jobExits success).job ≠ .notStarted) ∧
      (run.shell.job.Settled → (run.shell.jobExits success).job.Settled) ∧
        ∀ b, run.shell.job = .exited b → (run.shell.jobExits success).job = .exited b := by
    unfold Shell.jobExits
    cases hjob : run.shell.job <;> simp [Job.Settled, hjob]
  have hexits : run.shell.jobExits success =
      { run.shell with job := (run.shell.jobExits success).job } := by
    unfold Shell.jobExits
    split <;> rfl
  have hnext : run.next options pid (.jobExits success) =
      { run with shell := { run.shell with job := (run.shell.jobExits success).job } } :=
    congrArg (fun shell => { run with shell := shell }) hexits
  rw [hnext]
  exact {
    commands := h.commands
    status := h.status
    handler := h.handler
    trapped := h.trapped
    mem_traps := h.mem_traps
    child_unset := h.child_unset
    child_set := h.child_set
    notStarted := fun hp => by simp [Shell.jobExits, h.notStarted hp]
    started := fun hp => ⟨hjob.1 (h.started hp).1, (h.started hp).2⟩
    argument := h.argument
    errexit := h.errexit
    waiting := h.waiting
    ended := fun hp => (h.ended hp).imp hjob.2.2
    received := fun hreceived => (h.received hreceived).imp_left hjob.2.1
    early := h.early
    early_set := h.early_set }

theorem next_shell {s' : Shell}
    (h : run.shell.step functions options (toString pid) = some s') :
    run.next options pid .shell = { run with shell := s' } := by
  rw [next, h]
  rfl

/-- A pending signal is handled. -/
theorem Inv.runTrap {p : Point} {traps : List Command} (h : Inv options pid command run p traps)
    (hpending : run.shell.pending = true) :
    Safe options pid command (run.next options pid .shell) := by
  obtain ⟨htrapped, hearly⟩ := h.trapped (.inl hpending)
  have hhandler : (run.shell.handler.map functions).getD [] = handleTermSignal := by
    rw [h.handler, htrapped]
    rfl
  rw [next_shell (Shell.step_of_pending h.status hpending)]
  refine .inr (.inr ?_)
  unfold Shell.runTrap
  rw [hhandler]
  have hmem : ∀ p : Point, ∀ c ∈ handleTermSignal, c ∈ p.trapCommands :=
    fun p c hc => List.mem_append_left _ hc
  have hne : handleTermSignal ≠ [] := by simp [handleTermSignal]
  cases hwaiting : run.shell.waiting with
  | true =>
    -- the wait ends
    obtain ⟨rfl, rfl | rfl⟩ := h.waiting hwaiting
    · have herrexit : run.shell.errexit = false := h.errexit rfl
      have htail : run.shell.commands.tail = Point.untrap.commands command := by
        rw [h.commands]
        rfl
      rw [if_pos rfl, if_neg (by simp [herrexit]), htail]
      refine ⟨.untrap, handleTermSignal, ?_⟩
      exact {
        commands := rfl
        status := h.status
        handler := h.handler
        trapped := fun _ => ⟨rfl, fun hset => by cases hset⟩
        mem_traps := hmem _
        child_unset := fun hunset => by cases hunset
        child_set := fun _ => h.child_set rfl
        notStarted := fun hp => by cases hp
        started := fun _ => h.started rfl
        argument := fun hp => by simp at hp
        errexit := fun _ => herrexit
        waiting := fun hwaiting => by cases hwaiting
        ended := fun hp => by simp at hp
        received := fun _ => .inr (.inr (.inl hne))
        early := fun _ hset => by cases hset
        early_set := fun hnounset _ => h.early_set hnounset rfl }
    · cases htrapped
  | false =>
    rw [if_neg (by simp)]
    refine ⟨p, handleTermSignal ++ traps, ?_⟩
    exact {
      commands := by rw [h.commands, List.append_assoc]
      status := h.status
      handler := h.handler
      trapped := fun _ => ⟨htrapped, hearly⟩
      mem_traps := fun c hc => (List.mem_append.mp hc).elim (hmem p c) (h.mem_traps c)
      child_unset := h.child_unset
      child_set := h.child_set
      notStarted := h.notStarted
      started := h.started
      argument := h.argument
      errexit := h.errexit
      waiting := fun hwait => by simp at hwait
      ended := h.ended
      received := fun _ => .inr (.inr (.inl (by simp [handleTermSignal])))
      early := fun hnounset hset => ⟨fun _ => .inr (by simp [handleTermSignal]), fun c hc =>
        (List.mem_append.mp hc).elim id ((h.early hnounset hset).2 c)⟩
      early_set := h.early_set }

theorem toString_pid_ne (pid : ℕ) : toString pid ≠ "" := by
  rw [Ne, ← String.toList_eq_nil_iff, Nat.toString_eq_repr, Nat.toList_repr]
  exact Nat.toDigits_ne_nil

/-- The value of the process id. -/
theorem withValue_child {s : Shell} {k : String → Shell}
    (h : s.vars "term_child_pid" = some (toString pid)) :
    s.withValue options "term_child_pid" k = k (toString pid) := by
  rw [Shell.withValue, Shell.expand, h]

/-- The process gets the signal, unless it has ended. -/
theorem execKill_child (pid : ℕ) {s : Shell} (rest : List Command) (hjob : s.job ≠ .notStarted)
    (herrexit : s.errexit = false) :
    ∃ job, s.execKill (toString pid) rest (toString pid) =
        { s with job := job, commands := rest } ∧
      job.Settled ∧ job ≠ .notStarted ∧ ∀ b, s.job = .exited b → job = .exited b := by
  unfold Shell.execKill Shell.fail
  cases hs : s.job with
  | notStarted => exact absurd hs hjob
  | running b => exact ⟨.running true, by simp, .inl rfl, by simp, by simp⟩
  | exited b =>
    refine ⟨.exited b, ?_, .inr ⟨b, rfl⟩, by simp, by simp⟩
    simp [herrexit, ← hs]

/-- A command is executed, outside of a wait. -/
theorem next_exec {c : Command} {rest : List Command} (hstatus : run.shell.status = .running)
    (hpending : run.shell.pending = false) (hwaiting : run.shell.waiting = false)
    (hcommands : run.shell.commands = c :: rest) {s' : Shell}
    (h : run.shell.exec functions options (toString pid) rest c = s') :
    run.next options pid .shell = { run with shell := s' } := by
  have hsame : { run.shell with waiting := false } = run.shell := by rw [← hwaiting]
  refine next_shell ?_
  rw [Shell.step_eq_exec hstatus hpending hcommands (by simp [hwaiting]), hsame, h]

/-- A command of a trap is executed. -/
theorem Inv.trapCommand {p : Point} {c : Command} {traps : List Command}
    (h : Inv options pid command run p (c :: traps)) (hpending : run.shell.pending = false) :
    Safe options pid command (run.next options pid .shell) := by
  obtain ⟨htrapped, hearly⟩ := h.trapped (.inr (List.cons_ne_nil _ _))
  have hwaiting : run.shell.waiting = false := by
    by_contra hne
    exact absurd (h.waiting (by simpa using hne)).1 (List.cons_ne_nil _ _)
  have hnotWaiting {q : Prop} (hwait : run.shell.waiting = true) : q := by
    rw [hwaiting] at hwait
    cases hwait
  have hnext {s' : Shell} (hexec : run.shell.exec functions options (toString pid)
      (traps ++ p.commands command) c = s') :
      run.next options pid .shell = { run with shell := s' } :=
    next_exec h.status hpending hwaiting h.commands hexec
  have hmem : ∀ c ∈ traps, c ∈ p.trapCommands :=
    fun c hc => h.mem_traps c (List.mem_cons_of_mem _ hc)
  have hc := h.mem_traps c List.mem_cons_self
  cases hset : p.isSet with
  | true =>
    have hchild := h.child_set hset
    have hstarted := h.started (Point.isStarted_of_isSet hset)
    have herrexit := h.errexit (Point.toleratesErrors_of_isTrapped htrapped hset)
    rw [Point.trapCommands, hset, if_pos rfl, handleTermSignal, List.mem_append,
      List.mem_singleton, List.mem_singleton] at hc
    obtain rfl | rfl := hc
    · -- the process id is known
      rw [hnext ((withValue_child hchild).trans (by rw [if_pos (toString_pid_ne pid)]))]
      refine .inr (.inr ⟨p, .kill "term_child_pid" :: traps, ?_⟩)
      exact {
        commands := rfl
        status := h.status
        handler := h.handler
        trapped := fun _ => ⟨htrapped, hearly⟩
        mem_traps := by
          intro c hc
          obtain rfl | hc := List.mem_cons.mp hc
          · simp [Point.trapCommands, hset]
          · exact hmem c hc
        child_unset := h.child_unset
        child_set := h.child_set
        notStarted := h.notStarted
        started := h.started
        argument := h.argument
        errexit := h.errexit
        waiting := hnotWaiting
        ended := h.ended
        received := fun _ => .inr (.inr (.inl (List.cons_ne_nil _ _)))
        early := fun _ hunset => absurd hset (by simp [hunset])
        early_set := h.early_set }
    · obtain ⟨job, hexec, hsettled, hne, hended⟩ :=
        execKill_child pid (traps ++ p.commands command) hstarted.1 herrexit
      rw [hnext ((withValue_child hchild).trans hexec)]
      refine .inr (.inr ⟨p, traps, ?_⟩)
      exact {
        commands := rfl
        status := h.status
        handler := h.handler
        trapped := fun _ => ⟨htrapped, hearly⟩
        mem_traps := hmem
        child_unset := h.child_unset
        child_set := h.child_set
        notStarted := fun hp => by simp [Point.isStarted_of_isSet hset] at hp
        started := fun _ => ⟨hne, hstarted.2⟩
        argument := h.argument
        errexit := h.errexit
        waiting := hnotWaiting
        ended := fun hp => (h.ended hp).imp hended
        received := fun _ => .inl hsettled
        early := fun _ hunset => absurd hset (by simp [hunset])
        early_set := h.early_set }
  | false =>
    have hchild := h.child_unset (Point.isUnset_of_isTrapped htrapped hset)
    rw [Point.trapCommands, hset, if_neg (by simp), handleTermSignal, List.mem_append,
      List.mem_singleton, List.mem_singleton] at hc
    obtain rfl | rfl := hc
    · cases hnounset : options.nounset with
      | true =>
        -- the expansion is an error
        have hexit : ∀ k, run.shell.withValue options "term_child_pid" k = run.shell.exit := by
          intro k
          rw [Shell.withValue, Shell.expand, hchild, hnounset]
          rfl
        rw [hnext (hexit _)]
        exact .inr (.inl ⟨rfl, hnounset, hearly hset⟩)
      | false =>
        have hempty : ∀ k, run.shell.withValue options "term_child_pid" k = k "" := by
          intro k
          rw [Shell.withValue, Shell.expand, hchild, hnounset]
          rfl
        rw [hnext (hempty _)]
        refine .inr (.inr ⟨p, .assign "term_kill_needed" (.literal "yes") :: traps, ?_⟩)
        exact {
          commands := rfl
          status := h.status
          handler := h.handler
          trapped := fun _ => ⟨htrapped, hearly⟩
          mem_traps := by
            intro c hc
            obtain rfl | hc := List.mem_cons.mp hc
            · simp [Point.trapCommands, hset]
            · exact hmem c hc
          child_unset := h.child_unset
          child_set := h.child_set
          notStarted := h.notStarted
          started := h.started
          argument := h.argument
          errexit := h.errexit
          waiting := hnotWaiting
          ended := h.ended
          received := fun _ => .inr (.inr (.inl (List.cons_ne_nil _ _)))
          early := fun hn => by simp [hnounset] at hn
          early_set := fun hn => by simp [hnounset] at hn }
    · have hnounset : options.nounset = false := by
        by_contra hne
        have hmem := (h.early (by simpa using hne) hset).2 _ List.mem_cons_self
        simp [handleTermSignal] at hmem
      have hother : "term_child_pid" ≠ "term_kill_needed" := by decide
      rw [hnext rfl]
      refine .inr (.inr ⟨p, traps, ?_⟩)
      exact {
        commands := rfl
        status := h.status
        handler := h.handler
        trapped := fun _ => ⟨htrapped, hearly⟩
        mem_traps := hmem
        child_unset := fun _ =>
          (Function.update_of_ne hother (some "yes") run.shell.vars).trans hchild
        child_set := fun hp => absurd hp (by simp [hset])
        notStarted := h.notStarted
        started := h.started
        argument := h.argument
        errexit := h.errexit
        waiting := hnotWaiting
        ended := h.ended
        received := fun _ =>
          .inr (.inr (.inr (.inr ⟨by simp [Shell.exec], .inl ⟨htrapped, hset⟩⟩)))
        early := fun hn => by simp [hnounset] at hn
        early_set := fun hn => by simp [hnounset] at hn }

/-- The next command of the script is executed, unless it is a wait. -/
theorem Inv.next_script {p : Point} (h : Inv options pid command run p [])
    (hpending : run.shell.pending = false) (hp : ¬ (p = .wait ∨ p = .waitAgain)) {c : Command}
    {rest : List Command} (hcommands : p.commands command = c :: rest) :
    run.next options pid .shell =
      { run with shell := run.shell.exec functions options (toString pid) rest c } := by
  have hwaiting : run.shell.waiting = false := by
    by_contra hne
    exact hp (h.waiting (by simpa using hne)).2
  exact next_exec h.status hpending hwaiting (h.commands.trans hcommands) rfl

theorem execWait_running {s : Shell} {termed : Bool} (rest : List Command)
    (hjob : s.job = .running termed) :
    s.execWait (toString pid) rest (toString pid) = { s with waiting := true } := by
  simp [Shell.execWait, hjob]

theorem execWait_exited {s : Shell} {success : Bool} (rest : List Command)
    (hjob : s.job = .exited success) (herrexit : s.errexit = false) :
    s.execWait (toString pid) rest (toString pid) = { s with commands := rest } := by
  cases success <;> simp [Shell.execWait, Shell.fail, hjob, herrexit]

/-- A wait for the process goes on until the process has ended. -/
theorem next_wait (options : Options) {rest : List Command} (hstatus : run.shell.status = .running)
    (hpending : run.shell.pending = false)
    (hcommands : run.shell.commands = .wait "term_child_pid" :: rest)
    (hchild : run.shell.vars "term_child_pid" = some (toString pid))
    (hjob : run.shell.job ≠ .notStarted) (herrexit : run.shell.errexit = false) :
    ((∃ termed, run.shell.job = .running termed) ∧
      run.next options pid .shell = { run with shell := { run.shell with waiting := true } }) ∨
    ∃ success, run.shell.job = .exited success ∧ run.next options pid .shell =
      { run with shell := { run.shell with waiting := false, commands := rest } } := by
  cases hs : run.shell.job with
  | notStarted => exact absurd hs hjob
  | running termed =>
    refine .inl ⟨⟨termed, rfl⟩, ?_⟩
    cases hwaiting : run.shell.waiting with
    | true =>
      have hsame : { run.shell with waiting := true } = run.shell := by rw [← hwaiting]
      rw [next, Shell.step_eq_none hpending hwaiting hs, hsame]
      rfl
    | false =>
      exact next_exec hstatus hpending hwaiting hcommands
        ((withValue_child hchild).trans (execWait_running rest hs))
  | exited success =>
    refine .inr ⟨success, rfl, next_shell ?_⟩
    rw [Shell.step_eq_exec hstatus hpending hcommands (by simp [hs])]
    exact congrArg some ((withValue_child (s := { run.shell with waiting := false }) hchild).trans
      (execWait_exited rest hs herrexit))

section

attribute [local simp] Point.isTrapped Point.isUnset Point.isSet Point.isStarted
  Point.toleratesErrors

/-- A command of the script is executed. -/
theorem Inv.scriptCommand {p : Point} (h : Inv options pid command run p [])
    (hpending : run.shell.pending = false) :
    Safe options pid command (run.next options pid .shell) := by
  obtain ⟨hcommands, hstatus, hhandler, htrapped, hmem, hunset, hset, hnotStarted, hstarted,
    hargument, herrexit, hwaiting, hended, hreceived, hearly, hearlySet⟩ := id h
  refine .inr (.inr ?_)
  -- every command leads to the next point; a field that it does not touch is an assumption
  cases p with
  | callPrepare =>
    rw [h.next_script hpending (by decide) rfl]
    refine ⟨.unsetChild, [], ?_⟩
    constructor
    · rfl
    all_goals first | assumption | simp_all [Shell.exec]
  | unsetChild =>
    rw [h.next_script hpending (by decide) rfl]
    refine ⟨.unsetNeeded, [], ?_⟩
    constructor
    · rfl
    all_goals first | assumption | simp_all [Shell.exec]
  | unsetNeeded =>
    rw [h.next_script hpending (by decide) rfl]
    refine ⟨.trap, [], ?_⟩
    constructor
    · rfl
    all_goals first | assumption | simp_all [Shell.exec]
  | trap =>
    rw [h.next_script hpending (by decide) rfl]
    refine ⟨.background, [], ?_⟩
    constructor
    · rfl
    all_goals first | assumption | simp_all [Shell.exec]
  | background =>
    rw [h.next_script hpending (by decide) rfl]
    refine ⟨.callWait, [], ?_⟩
    constructor
    · rfl
    all_goals first | assumption | simp_all [Shell.exec]
  | callWait =>
    rw [h.next_script hpending (by decide) rfl]
    refine ⟨.setErrexit, [], ?_⟩
    constructor
    · rfl
    all_goals first | assumption | simp_all [Shell.exec, Shell.value]
  | setErrexit =>
    rw [h.next_script hpending (by decide) rfl]
    refine ⟨.assign, [], ?_⟩
    constructor
    · rfl
    all_goals first | assumption | simp_all [Shell.exec]
  | assign =>
    rw [h.next_script hpending (by decide) rfl]
    refine ⟨.test, [], ?_⟩
    constructor
    · rfl
    all_goals first | assumption | simp_all [Shell.exec, Shell.value]
  | test =>
    rw [h.next_script hpending (by decide) rfl]
    cases hneeded : run.shell.vars "term_kill_needed" with
    | none =>
      refine ⟨.wait, [], ?_⟩
      constructor
      · simp [Shell.exec, hneeded]
        rfl
      all_goals first | assumption | simp_all [Shell.exec]
    | some needed =>
      refine ⟨.kill, [], ?_⟩
      constructor
      · simp [Shell.exec, hneeded]
        rfl
      all_goals first | assumption | simp_all [Shell.exec]
  | kill =>
    obtain ⟨job, hexec, hsettled, hne, -⟩ :=
      execKill_child pid (waitForTermination.drop 3) (hstarted rfl).1 (herrexit rfl)
    have hkill : run.shell.exec functions options (toString pid) (waitForTermination.drop 3)
        (.kill "term_child_pid") =
      { run.shell with job := job, commands := waitForTermination.drop 3 } :=
      (withValue_child (hset rfl)).trans hexec
    rw [h.next_script hpending (by decide) rfl, hkill]
    refine ⟨.wait, [], ?_⟩
    constructor
    · rfl
    all_goals first | assumption | simp_all
  | wait =>
    obtain ⟨⟨termed, hjob⟩, hnext⟩ | ⟨success, hjob, hnext⟩ := next_wait options hstatus hpending
      hcommands (hset rfl) (hstarted rfl).1 (herrexit rfl)
    · rw [hnext]
      refine ⟨.wait, [], ?_⟩
      constructor
      · exact hcommands
      all_goals first | assumption | simp_all
    · rw [hnext]
      refine ⟨.untrap, [], ?_⟩
      constructor
      · rfl
      all_goals first | assumption | simp_all
  | untrap =>
    rw [h.next_script hpending (by decide) rfl]
    refine ⟨.waitAgain, [], ?_⟩
    constructor
    · rfl
    all_goals first | assumption | simp_all [Shell.exec]
  | waitAgain =>
    obtain ⟨⟨termed, hjob⟩, hnext⟩ | ⟨success, hjob, hnext⟩ := next_wait options hstatus hpending
      hcommands (hset rfl) (hstarted rfl).1 (herrexit rfl)
    · rw [hnext]
      refine ⟨.waitAgain, [], ?_⟩
      constructor
      · exact hcommands
      all_goals first | assumption | simp_all
    · rw [hnext]
      refine ⟨.resetErrexit, [], ?_⟩
      constructor
      · rfl
      all_goals first | assumption | simp_all
  | resetErrexit =>
    rw [h.next_script hpending (by decide) rfl]
    refine ⟨.done, [], ?_⟩
    constructor
    · rfl
    all_goals first | assumption | simp_all [Shell.exec]
  | done =>
    have hsame : run.next options pid .shell = run := by
      rw [next, Shell.step, if_neg (not_not.mpr hstatus), if_neg (by simp [hpending]), hcommands]
      rfl
    rw [hsame]
    exact ⟨.done, [], h⟩

end

/-! ### All orders of events -/

/-- After its end the shell stays as it is, and only the process may still end. -/
theorem next_of_ended (h : run.shell.status ≠ .running) (e : Event) :
    ∃ job, run.next options pid e = { run with shell := { run.shell with job := job } } ∧
      (run.shell.job.Settled → job.Settled) := by
  cases e with
  | shell =>
    refine ⟨run.shell.job, ?_, id⟩
    rw [next, Shell.step, if_pos h]
    rfl
  | term =>
    refine ⟨run.shell.job, ?_, id⟩
    simp [next, Shell.term, h]
  | jobExits success =>
    refine ⟨(run.shell.jobExits success).job, ?_, ?_⟩
    · have hexits : run.shell.jobExits success =
          { run.shell with job := (run.shell.jobExits success).job } := by
        unfold Shell.jobExits
        split <;> rfl
      exact congrArg (fun shell => { run with shell := shell }) hexits
    · unfold Shell.jobExits
      cases hjob : run.shell.job <;> simp [Job.Settled, hjob]

/-- **One event keeps what holds.** -/
theorem Safe.next (h : Safe options pid command run) (e : Event) :
    Safe options pid command (run.next options pid e) := by
  obtain hkilled | ⟨hexited, hearly⟩ | ⟨p, traps, h⟩ := h
  · have hended : run.shell.status ≠ .running := by simp [hkilled.status]
    obtain ⟨job, hnext, hsettled⟩ := next_of_ended hended e
    rw [hnext]
    exact .inl ⟨hkilled.status, hkilled.isInit, fun hr => hsettled (hkilled.received hr),
      hkilled.early⟩
  · have hended : run.shell.status ≠ .running := by simp [hexited]
    obtain ⟨job, hnext, -⟩ := next_of_ended hended e
    rw [hnext]
    exact .inr (.inl ⟨hexited, hearly⟩)
  · cases e with
    | term => exact h.term
    | jobExits success => exact .inr (.inr ⟨p, traps, h.jobExits success⟩)
    | shell =>
      cases hpending : run.shell.pending with
      | true => exact h.runTrap hpending
      | false =>
        cases traps with
        | nil => exact h.scriptCommand hpending
        | cons c traps => exact h.trapCommand hpending

theorem Safe.after (h : Safe options pid command run) (events : List Event) :
    Safe options pid command (run.after options pid events) := by
  induction events generalizing run with
  | nil => exact h
  | cons e events ih => exact ih (h.next e)

/-- What the script guarantees. -/
structure Guarantee (options : Options) (pid : ℕ) (run : Run) : Prop where
  killed : run.shell.status = .killed → options.isInit = false
  /-- The functions return after the end of the process. -/
  returned : run.shell.status = .running → run.shell.commands = [] →
    ∃ success, run.shell.job = .exited success
  /-- The shell ends early iff a signal comes early, and `set -u` is set. -/
  exited : run.shell.step functions options (toString pid) = none →
    (run.shell.status = .exited ↔ options.nounset = true ∧ run.early = true)
  /-- Other signals reach the process. -/
  settled : run.shell.step functions options (toString pid) = none → run.received = true →
    ¬ (options.nounset = true ∧ run.early = true) → run.shell.job.Settled

theorem Inv.guarantee {p : Point} {traps : List Command}
    (h : Inv options pid command run p traps) : Guarantee options pid run := by
  have hnone : run.shell.step functions options (toString pid) = none →
      run.shell.pending = false ∧ traps = [] := by
    intro hblocked
    have hpending : run.shell.pending = false := by
      by_contra hne
      rw [Shell.step_of_pending h.status (by simpa using hne)] at hblocked
      cases hblocked
    refine ⟨hpending, ?_⟩
    by_contra hne
    have hwaiting : run.shell.waiting = true → ∀ b, run.shell.job ≠ .running b :=
      fun hwait => absurd (h.waiting hwait).1 hne
    obtain ⟨c, rest, hcons⟩ := List.exists_cons_of_ne_nil hne
    have hcommands : run.shell.commands = c :: (rest ++ p.commands command) := by
      rw [h.commands, hcons]
      rfl
    rw [Shell.step_eq_exec h.status hpending hcommands hwaiting] at hblocked
    cases hblocked
  have hnotEarly : run.shell.step functions options (toString pid) = none →
      ¬ (options.nounset = true ∧ run.early = true) := by
    rintro hblocked ⟨hnounset, hearly⟩
    obtain ⟨hpending, htraps⟩ := hnone hblocked
    cases hset : p.isSet with
    | true =>
      rw [h.early_set hnounset hset] at hearly
      cases hearly
    | false =>
      obtain hp | ht := (h.early hnounset hset).1 hearly
      · rw [hpending] at hp
        cases hp
      · exact ht htraps
  refine ⟨fun hkilled => ?_, fun _ hcommands => ?_, fun hblocked => ?_, fun hblocked hr _ => ?_⟩
  · rw [h.status] at hkilled
    cases hkilled
  · rw [h.commands] at hcommands
    have hdone : p.commands command = [] := (List.append_eq_nil_iff.mp hcommands).2
    refine h.ended (.inr ?_)
    cases p <;> first | rfl | cases hdone
  · rw [h.status]
    exact iff_of_false (by simp) (hnotEarly hblocked)
  · obtain ⟨hpending, rfl⟩ := hnone hblocked
    have hwait : run.shell.waiting = false →
        ∀ {c rest}, run.shell.commands = c :: rest → False := by
      intro hwaiting c rest hcommands
      rw [Shell.step_eq_exec h.status hpending hcommands (by simp [hwaiting])] at hblocked
      cases hblocked
    obtain hsettled | hp | ht | rfl | ⟨-, hp⟩ := h.received hr
    · exact hsettled
    · rw [hpending] at hp
      cases hp
    · exact absurd rfl ht
    · exact (hwait (by simpa using h.waiting) h.commands).elim
    · -- a point before the wait is not blocked
      have hwaiting : run.shell.waiting = false := by
        by_contra hne
        obtain ⟨-, rfl | rfl⟩ := h.waiting (by simpa using hne) <;> simp [Point.isSet] at hp
      have hcommands : p.commands command ≠ [] := by
        obtain ⟨htrapped, -⟩ | rfl := hp
        · cases p <;> first | exact List.cons_ne_nil _ _ | cases htrapped
        · exact List.cons_ne_nil _ _
      obtain ⟨c, rest, hcons⟩ := List.exists_cons_of_ne_nil hcommands
      exact (hwait hwaiting (h.commands.trans hcons)).elim

theorem Safe.guarantee (h : Safe options pid command run) : Guarantee options pid run := by
  obtain hkilled | ⟨hexited, hearly⟩ | ⟨p, traps, h⟩ := h
  · refine ⟨fun _ => hkilled.isInit, fun hstatus => ?_, fun _ => ?_, fun _ hr _ =>
      hkilled.received hr⟩
    · rw [hkilled.status] at hstatus
      cases hstatus
    · rw [hkilled.status]
      refine iff_of_false (by simp) ?_
      rintro ⟨hnounset, hearly⟩
      rw [hkilled.early hnounset] at hearly
      cases hearly
  · refine ⟨fun hkilled => ?_, fun hstatus => ?_, fun _ => iff_of_true hexited hearly,
      fun _ _ hne => absurd hearly hne⟩
    · rw [hexited] at hkilled
      cases hkilled
    · rw [hexited] at hstatus
      cases hstatus
  · exact h.guarantee

/-- The functions do not call each other. -/
theorem totalWeight_functions_le (function : String) :
    totalWeight (fun _ => 16) (functions function) ≤ 16 := by
  unfold functions functionTable
  simp only [List.lookup_cons, List.lookup_nil]
  split
  · decide
  · split
    · decide
    · split <;> decide

theorem after_replicate_shell (n : ℕ) :
    run.after options pid (List.replicate n .shell) =
      { run with shell :=
        (fun s => (s.step functions options (toString pid)).getD s)^[n] run.shell } := by
  induction n generalizing run with
  | zero => rfl
  | succ n ih =>
    rw [List.replicate_succ, after, List.foldl_cons, ← after, ih, Function.iterate_succ_apply]
    rfl

/-- **A signal reaches the process**, whatever the order of events: signals and the end of the
process can come between any two steps of the shell.

The shell comes to a point where it waits or has ended. There, each signal that arrived while the
trap was set has been passed on to the process, or the process has ended. The only exception is a
signal that comes before the process id is in the variable, and only with `set -u`: then, and only
then, the shell ends early with an error. The functions never return before the end of the process,
and the init process of a container is never killed by a signal. -/
theorem guarantee_after (options : Options) (pid : ℕ) (command : String)
    (vars : String → Option String) (argument lastBackground : String) (errexit : Bool)
    (events : List Event) :
    Guarantee options pid
        ((start command vars argument lastBackground errexit).after options pid events) ∧
      ∃ n, ((start command vars argument lastBackground errexit).after options pid
        (events ++ List.replicate n .shell)).shell.step functions options (toString pid) =
          none := by
  refine ⟨((safe_start vars argument lastBackground errexit).after events).guarantee, ?_⟩
  obtain ⟨n, hn⟩ := Shell.exists_iterate_blocked totalWeight_functions_le
    ((start command vars argument lastBackground errexit).after options pid events).shell
  refine ⟨n, ?_⟩
  rw [after, List.foldl_append, ← after, ← after, after_replicate_shell]
  exact hn

/-- With `set -u`, as git-sync is run, an early signal ends the shell and not the process. -/
example :
    ((start "git-sync" (fun _ => none) "" "" true).after ⟨true, true⟩ 7
      [.shell, .shell, .shell, .shell, .shell, .term, .shell, .shell]).shell.status = .exited ∧
    ((start "git-sync" (fun _ => none) "" "" true).after ⟨true, true⟩ 7
      [.shell, .shell, .shell, .shell, .shell, .term, .shell, .shell]).shell.job =
        .running false := ⟨rfl, rfl⟩

end Run

end StackableOperator.Bash
