import Mathlib

/-!
# A shell with one background job and a trap

A fragment of the shell language: functions, variables, a background job, the builtins `kill`,
`trap` and `wait`, and the signal `TERM`. `Command.lines` is the text of a command and
`Shell.step` is what the shell does next. Signals and the end of the job come from outside, at any
time.

A signal for which a trap is set is remembered, and the trap runs before the next command. A `wait`
for the job is interrupted by such a signal. A signal without a trap ends the shell, except that
the init process of a container ignores it.

The shell cannot run forever on its own: if no function calls itself then each of its steps
decreases `Shell.measure`, so that it comes to a point where it waits for the outside
(`Shell.exists_iterate_blocked`).
-/

namespace StackableOperator.ShellJobs

/-! ### Commands -/

inductive Word : Type
  | literal (text : String)
  /-- The first argument of a function. -/
  | argument
  /-- The process id of the job. -/
  | lastBackground

def Word.text : Word → String
  | literal text => "\"" ++ text ++ "\""
  | argument => "$1"
  | lastBackground => "$!"

inductive Command : Type
  | unset (name : String)
  | assign (name : String) (value : Word)
  | setErrexit (on : Bool)
  /-- Set the trap for `TERM`. -/
  | trap (function : String)
  /-- Remove the trap for `TERM`. -/
  | untrap
  /-- Run a command in the background. -/
  | background (command : String)
  | call (function : String) (value : Option Word)
  /-- Send `TERM` to the process whose id is in a variable. -/
  | kill (name : String)
  /-- Wait for the process whose id is in a variable. -/
  | wait (name : String)
  /-- Distinguish whether a variable has a nonempty value. -/
  | ifNonempty (name : String) (yes no : Command)
  /-- Distinguish whether a variable is set. -/
  | ifSet (name : String) (yes : Command)

namespace Command

/-- The value of a variable, in the text of a script. -/
def expansion (name : String) : String := "$\x7b" ++ name ++ "\x7d"

def indent (line : String) : String := "    " ++ line

/-- The text of a command. -/
def lines : Command → List String
  | unset name => ["unset " ++ name]
  | assign name value => [name ++ "=" ++ value.text]
  | setErrexit on => [if on then "set -e" else "set +e"]
  | trap function => ["trap '" ++ function ++ "' TERM"]
  | untrap => ["trap - TERM"]
  | background command => [command ++ " &"]
  | call function value => [function ++ (value.map fun value => " " ++ value.text).getD ""]
  | kill name => ["kill -TERM \"" ++ expansion name ++ "\" 2>/dev/null"]
  | wait name => ["wait " ++ expansion name ++ " 2>/dev/null"]
  | ifNonempty name yes no =>
    ["if [ \"" ++ expansion name ++ "\" ]; then"] ++ yes.lines.map indent ++ ["else"] ++
      no.lines.map indent ++ ["fi"]
  | ifSet name yes => ["if [[ -v " ++ name ++ " ]]; then"] ++ yes.lines.map indent ++ ["fi"]

/-- The text of the definition of a function. -/
def functionLines (name : String) (body : List Command) : List String :=
  [name ++ "()", "\x7b"] ++ (body.flatMap lines).map indent ++ ["\x7d"]

end Command

/-! ### States -/

structure Options where
  /-- The expansion of an unset variable is an error, `set -u`. -/
  nounset : Bool
  /-- The shell is the init process of a container. -/
  isInit : Bool

inductive Job : Type
  | notStarted
  | running (termed : Bool)
  | exited (success : Bool)
  deriving DecidableEq

/-- The job was asked to terminate, or has terminated. -/
def Job.Settled (job : Job) : Prop := job = .running true ∨ ∃ success, job = .exited success

@[simp] theorem Job.not_settled_notStarted : ¬ Job.notStarted.Settled := by
  simp [Settled]

@[simp] theorem Job.settled_exited (success : Bool) : (Job.exited success).Settled :=
  .inr ⟨success, rfl⟩

inductive Status : Type
  | running
  /-- The shell ended because of an error. -/
  | exited
  | killed
  deriving DecidableEq

structure Shell where
  /-- What is still to be executed -/
  commands : List Command
  vars : String → Option String
  argument : String
  lastBackground : String
  handler : Option String
  /-- A signal arrived whose trap has not run yet. -/
  pending : Bool
  errexit : Bool
  /-- The first command is a wait that has begun. -/
  waiting : Bool
  job : Job
  status : Status

namespace Shell

variable (functions : String → List Command) (options : Options) (pid : String)

def exit (s : Shell) : Shell := { s with commands := [], status := .exited }

/-- A command failed, and the others are still to be executed. -/
def fail (s : Shell) (rest : List Command) : Shell :=
  if s.errexit then s.exit else { s with commands := rest }

/-- The value of a variable, if its expansion is not an error. -/
def expand (s : Shell) (name : String) : Option String :=
  match s.vars name with
  | some value => some value
  | none => if options.nounset then none else some ""

/-- Go on with the value of a variable. -/
def withValue (s : Shell) (name : String) (k : String → Shell) : Shell :=
  match s.expand options name with
  | some value => k value
  | none => s.exit

def value (s : Shell) : Word → String
  | .literal text => text
  | .argument => s.argument
  | .lastBackground => s.lastBackground

/-- Send `TERM` to a process. -/
def execKill (s : Shell) (rest : List Command) (target : String) : Shell :=
  match s.job with
  | .running _ =>
    if target = pid then { s with job := .running true, commands := rest } else s.fail rest
  | _ => s.fail rest

/-- Wait for a process; without one, for all jobs. -/
def execWait (s : Shell) (rest : List Command) (target : String) : Shell :=
  match s.job with
  | .running _ => if target = pid ∨ target = "" then { s with waiting := true } else s.fail rest
  | .exited success =>
    if target = "" ∨ (target = pid ∧ success) then { s with commands := rest } else s.fail rest
  | .notStarted => if target = "" then { s with commands := rest } else s.fail rest

/-- Execute a command. -/
def exec (s : Shell) (rest : List Command) : Command → Shell
  | .unset name => { s with vars := Function.update s.vars name none, commands := rest }
  | .assign name value =>
    { s with vars := Function.update s.vars name (some (s.value value)), commands := rest }
  | .setErrexit on => { s with errexit := on, commands := rest }
  | .trap function => { s with handler := some function, commands := rest }
  | .untrap => { s with handler := none, commands := rest }
  | .background _ => { s with job := .running false, lastBackground := pid, commands := rest }
  | .call function value =>
    { s with
      argument := (value.map s.value).getD s.argument
      commands := functions function ++ rest }
  | .kill name => s.withValue options name (s.execKill pid rest)
  | .wait name => s.withValue options name (s.execWait pid rest)
  | .ifNonempty name yes no =>
    s.withValue options name fun value =>
      { s with commands := (if value ≠ "" then yes else no) :: rest }
  | .ifSet name yes =>
    { s with commands := if (s.vars name).isSome then yes :: rest else rest }

/-- Run the trap before the next command, or instead of the rest of a wait. -/
def runTrap (s : Shell) : Shell :=
  let handler := (s.handler.map functions).getD []
  if s.waiting then
    if s.errexit then s.exit
    else
      { s with pending := false, waiting := false, commands := handler ++ s.commands.tail }
  else { s with pending := false, commands := handler ++ s.commands }

/-- The next step of the shell; `none` if it waits for the outside or has ended. -/
def step (s : Shell) : Option Shell :=
  if s.status ≠ .running then none
  else if s.pending then some (s.runTrap functions)
  else
    match s.commands with
    | [] => none
    | c :: rest =>
      match s.waiting, s.job with
      | true, .running _ => none
      | _, _ => some ({ s with waiting := false }.exec functions options pid rest c)

/-- The signal `TERM` arrives. -/
def term (s : Shell) : Shell :=
  if s.status ≠ .running then s
  else if s.handler.isSome then { s with pending := true }
  else if options.isInit then s
  else { s with status := .killed }

/-- The job ends, if it is running. -/
def jobExits (s : Shell) (success : Bool) : Shell :=
  match s.job with
  | .running _ => { s with job := .exited success }
  | _ => s

end Shell

section

variable {functions : String → List Command} {options : Options} {pid : String}

/-! ### Steps -/

namespace Shell

theorem step_of_pending {s : Shell} (hstatus : s.status = .running) (hpending : s.pending = true) :
    s.step functions options pid = some (s.runTrap functions) := by
  rw [step, if_neg (not_not.mpr hstatus), if_pos hpending]

theorem step_eq_exec {s : Shell} {c : Command} {rest : List Command}
    (hstatus : s.status = .running) (hpending : s.pending = false)
    (hcommands : s.commands = c :: rest) (hwaiting : s.waiting = true → ∀ b, s.job ≠ .running b) :
    s.step functions options pid =
      some ({ s with waiting := false }.exec functions options pid rest c) := by
  rw [step, if_neg (not_not.mpr hstatus), if_neg (by simp [hpending]), hcommands]
  dsimp only
  split
  · next hwait hjob => exact absurd hjob (hwaiting hwait _)
  · rfl

theorem step_eq_none {s : Shell} (hpending : s.pending = false) {b : Bool}
    (hwaiting : s.waiting = true) (hjob : s.job = .running b) :
    s.step functions options pid = none := by
  unfold step
  split
  · rfl
  · rw [if_neg (by simp [hpending]), hwaiting, hjob]
    cases s.commands <;> rfl

end Shell

/-! ### Progress -/

/-- The weight of a command, given those of the functions. -/
def Command.weight (w : String → ℕ) : Command → ℕ
  | call function _ => 2 + w function
  | ifNonempty _ yes no => 2 + max (yes.weight w) (no.weight w)
  | ifSet _ yes => 2 + yes.weight w
  | _ => 2

theorem Command.two_le_weight (w : String → ℕ) (c : Command) : 2 ≤ c.weight w := by
  cases c <;> simp [weight]

def totalWeight (w : String → ℕ) (commands : List Command) : ℕ :=
  (commands.map (Command.weight w)).sum

@[simp] theorem totalWeight_cons (w : String → ℕ) (c : Command) (commands : List Command) :
    totalWeight w (c :: commands) = c.weight w + totalWeight w commands := by
  simp [totalWeight]

@[simp] theorem totalWeight_append (w : String → ℕ) (commands commands' : List Command) :
    totalWeight w (commands ++ commands') = totalWeight w commands + totalWeight w commands' := by
  simp [totalWeight]

namespace Shell

/-- What decreases in every step of the shell. -/
def measure (w : String → ℕ) (s : Shell) : ℕ :=
  totalWeight w s.commands + (if s.pending then 2 + (s.handler.map w).getD 0 else 0) +
    (if s.waiting then 0 else 1) + if s.status = .running then 1 else 0

variable {w : String → ℕ} {s s' : Shell} {rest : List Command}

/-- Without a pending signal. -/
theorem measure_of_not_pending (h : s.pending = false) :
    s.measure w = totalWeight w s.commands + (if s.waiting then 0 else 1) +
      if s.status = .running then 1 else 0 := by
  rw [measure, h]
  rfl

/-- A step that leaves less than it found makes up for the end of a wait. -/
theorem measure_lt {t : Shell} (hstatus : s.status = .running) (hpending : s.pending = false)
    (ht : t.pending = false) (h : totalWeight w t.commands + 2 ≤ totalWeight w s.commands) :
    t.measure w < s.measure w := by
  rw [measure_of_not_pending hpending, measure_of_not_pending ht, hstatus]
  cases s.waiting <;> cases t.waiting <;> cases t.status <;> simp <;> omega

/-- Executing a command decreases the measure, also after a wait that has ended. -/
theorem measure_exec_lt (hw : ∀ f, totalWeight w (functions f) ≤ w f)
    (hstatus : s.status = .running) (hpending : s.pending = false) {c : Command}
    (hcommands : s.commands = c :: rest) (hwaiting : s.waiting = true → ∀ b, s.job ≠ .running b) :
    ({ s with waiting := false }.exec functions options pid rest c).measure w < s.measure w := by
  have hc := c.two_le_weight w
  have hsum : totalWeight w s.commands = c.weight w + totalWeight w rest := by
    rw [hcommands, totalWeight_cons]
  have hlt : ∀ t : Shell, t.pending = false →
      totalWeight w t.commands + 2 ≤ totalWeight w s.commands → t.measure w < s.measure w :=
    fun t => measure_lt hstatus hpending
  have hrest : ∀ t : Shell, t.pending = false → t.commands = rest → t.measure w < s.measure w :=
    fun t ht h => hlt t ht (by rw [h]; omega)
  have hexit : ∀ t : Shell, t.pending = false → t.exit.measure w < s.measure w := by
    intro t ht
    refine hlt t.exit ht ?_
    have hnil : totalWeight w t.exit.commands = 0 := rfl
    omega
  have hfail : ∀ t : Shell, t.pending = false → (t.fail rest).measure w < s.measure w := by
    intro t ht
    unfold fail
    split
    · exact hexit t ht
    · exact hrest _ ht rfl
  have hvalue : ∀ (name : String) (k : String → Shell),
      (∀ value, (k value).measure w < s.measure w) →
        (withValue options { s with waiting := false } name k).measure w < s.measure w := by
    intro name k hk
    unfold withValue
    split
    · exact hk _
    · exact hexit _ hpending
  cases c with
  | unset name => exact hrest _ hpending rfl
  | assign name value => exact hrest _ hpending rfl
  | setErrexit on => exact hrest _ hpending rfl
  | trap function => exact hrest _ hpending rfl
  | untrap => exact hrest _ hpending rfl
  | background command => exact hrest _ hpending rfl
  | call function value =>
    have hf := hw function
    refine hlt _ hpending ?_
    rw [hsum]
    simp only [exec, totalWeight_append, Command.weight]
    omega
  | kill name =>
    refine hvalue name _ fun target => ?_
    unfold execKill
    split
    · split
      · exact hrest _ hpending rfl
      · exact hfail _ hpending
    · exact hfail _ hpending
  | wait name =>
    refine hvalue name _ fun target => ?_
    unfold execWait
    split
    · next b hjob =>
      split
      · -- the wait begins
        have hfalse : s.waiting = false := by
          by_contra hne
          exact hwaiting (by simpa using hne) b hjob
        have hbegin : measure w { s with waiting := true } < measure w s := by
          simp [measure, hfalse]
        exact hbegin
      · exact hfail _ hpending
    · split
      · exact hrest _ hpending rfl
      · exact hfail _ hpending
    · split
      · exact hrest _ hpending rfl
      · exact hfail _ hpending
  | ifNonempty name yes no =>
    refine hvalue name _ fun value => hlt _ hpending ?_
    rw [hsum]
    simp only [totalWeight_cons, Command.weight]
    split <;> omega
  | ifSet name yes =>
    refine hlt _ hpending ?_
    rw [hsum]
    simp only [exec, Command.weight]
    split
    · rw [totalWeight_cons]
      omega
    · omega

/-- **Every step of the shell decreases the measure.** -/
theorem measure_step_lt (hw : ∀ f, totalWeight w (functions f) ≤ w f)
    (h : s.step functions options pid = some s') : s'.measure w < s.measure w := by
  unfold step at h
  split at h
  · cases h
  · next hstatus =>
    have hstatus : s.status = .running := not_not.mp hstatus
    split at h
    · next hpending =>
      obtain rfl : s.runTrap functions = s' := Option.some.inj h
      -- a pending signal is exchanged for the commands of its handler
      have htotal : totalWeight w ((s.handler.map functions).getD []) ≤
          (s.handler.map w).getD 0 := by
        cases s.handler with
        | none => simp [totalWeight]
        | some f => exact hw f
      have htail : totalWeight w s.commands.tail ≤ totalWeight w s.commands := by
        cases s.commands with
        | nil => exact le_refl _
        | cons c rest => simp
      unfold runTrap
      split
      · next hwait =>
        split
        · have hnil : totalWeight w ([] : List Command) = 0 := rfl
          simp [measure, exit, hpending, hstatus, hwait, hnil]
        · simp [measure, hpending, hstatus, hwait]
          omega
      · next hwait =>
        simp [measure, hpending, hstatus, hwait]
        omega
    · next hpending =>
      -- no signal is pending: the next command is executed
      have hpending : s.pending = false := by simpa using hpending
      split at h
      · cases h
      · next c rest hcommands =>
        split at h
        · cases h
        · next hblocked =>
          rw [← Option.some.inj h]
          exact measure_exec_lt hw hstatus hpending hcommands
            fun hwait b hjob => hblocked b hwait hjob

/-- **The shell does not run forever on its own**: after some steps it waits or has ended. -/
theorem exists_iterate_blocked (hw : ∀ f, totalWeight w (functions f) ≤ w f) (s : Shell) :
    ∃ n, ((fun s => (step functions options pid s).getD s)^[n] s).step functions options pid =
      none := by
  induction hm : s.measure w using Nat.strong_induction_on generalizing s with
  | _ m ih =>
    cases hstep : s.step functions options pid with
    | none => exact ⟨0, hstep⟩
    | some s' =>
      have hlt := measure_step_lt hw hstep
      obtain ⟨n, hn⟩ := ih _ (hm ▸ hlt) s' rfl
      refine ⟨n + 1, ?_⟩
      rw [Function.iterate_succ_apply, hstep]
      exact hn

end Shell

end

end StackableOperator.ShellJobs
