import Mathlib

/-!
# Scripts that share a directory tree

A fragment of the shell language for processes that communicate through files: a script makes
directories, creates and removes files, tests whether a file is missing, and waits until something
is created in a directory. `Command.text` is the text of a command and `Process.step` is what a
process does next. A command that fails ends the script, as with `set -e` or in a chain of `&&`. In
front of a single `&&` it does not.

The file system keeps the history of all creations, and a wait is over when the history has a later
creation in the directory. A file that was created before the wait had begun does not end it.
`Files.Records` says what every step of every process keeps: a path which has come into existence is
in the history.
-/

namespace StackableOperator.WatchedFiles

/-! ### Files -/

/-- A name in a directory. -/
structure Path where
  directory : String
  name : String
  deriving DecidableEq

def Path.text (path : Path) : String := path.directory ++ "/" ++ path.name

structure Files where
  paths : Finset Path
  /-- All paths that were created, the latest one last. -/
  created : List Path

namespace Files

/-- There is a directory with this path. -/
def HasDirectory (files : Files) (directory : String) : Prop :=
  ∃ path ∈ files.paths, path.text = directory

instance (files : Files) (directory : String) : Decidable (files.HasDirectory directory) :=
  inferInstanceAs (Decidable (∃ path ∈ files.paths, path.text = directory))

/-- Create a path, unless it exists. -/
def create (files : Files) (path : Path) : Files :=
  if path ∈ files.paths then files
  else ⟨insert path files.paths, files.created ++ [path]⟩

def remove (files : Files) (path : Path) : Files := { files with paths := files.paths.erase path }

/-- What happens between two moments is recorded. -/
structure Records (files files' : Files) : Prop where
  created : files.created <+: files'.created
  paths : ∀ path ∈ files'.paths, path ∈ files.paths ∨
    path ∈ files'.created.drop files.created.length

variable {files files' : Files}

theorem Records.refl (files : Files) : files.Records files :=
  ⟨List.prefix_rfl, fun _ => .inl⟩

/-- A path which is in the later history if it exists stays so. -/
theorem Records.mem_drop {path : Path} {n : ℕ} (h : files.Records files')
    (hn : n ≤ files.created.length)
    (hpath : path ∈ files.paths → path ∈ files.created.drop n) (hpath' : path ∈ files'.paths) :
    path ∈ files'.created.drop n := by
  rcases h.paths path hpath' with hearly | hlate
  · exact (h.created.drop n).subset (hpath hearly)
  · exact (List.drop_sublist_drop_left _ hn).subset hlate

theorem records_create (files : Files) (path : Path) : files.Records (files.create path) := by
  unfold create
  split
  · exact .refl files
  · refine ⟨List.prefix_append _ _, fun path' hpath' => ?_⟩
    rcases Finset.mem_insert.mp hpath' with rfl | hpath'
    · exact .inr (by simp)
    · exact .inl hpath'

theorem records_remove (files : Files) (path : Path) : files.Records (files.remove path) :=
  ⟨List.prefix_rfl, fun _ hpath => .inl (Finset.mem_of_mem_erase hpath)⟩

@[simp] theorem mem_paths_create {path path' : Path} :
    path' ∈ (files.create path).paths ↔ path' = path ∨ path' ∈ files.paths := by
  unfold create
  split
  · next hmem =>
    refine ⟨.inr, ?_⟩
    rintro (rfl | h)
    · exact hmem
    · exact h
  · exact Finset.mem_insert

/-- Only the path itself is created. -/
theorem mem_created_drop_create {path path' : Path} {n : ℕ}
    (h : path' ∈ (files.create path).created.drop n) :
    path' = path ∨ path' ∈ files.created.drop n := by
  unfold create at h
  split at h
  · exact .inr h
  · rw [List.drop_append] at h
    rcases List.mem_append.mp h with h | h
    · exact .inr h
    · exact .inl (List.mem_singleton.mp (List.mem_of_mem_drop h))

/-- Nothing in the directory is created or removed. -/
structure Leaves (directory : String) (files files' : Files) : Prop where
  paths : ∀ path : Path, path.directory = directory →
    (path ∈ files'.paths ↔ path ∈ files.paths)
  created : ∀ path : Path, path.directory = directory → ∀ n,
    path ∈ files'.created.drop n → path ∈ files.created.drop n

theorem Leaves.refl (directory : String) (files : Files) : files.Leaves directory files :=
  ⟨fun _ _ => Iff.rfl, fun _ _ _ => id⟩

theorem leaves_create {directory : String} {path : Path} (h : path.directory ≠ directory) :
    files.Leaves directory (files.create path) := by
  have hne : ∀ path' : Path, path'.directory = directory → path' ≠ path := by
    rintro _ hpath rfl
    exact h hpath
  refine ⟨fun path' hpath' => ?_, fun path' hpath' n hmem => ?_⟩
  · rw [mem_paths_create, or_iff_right (hne path' hpath')]
  · exact (mem_created_drop_create hmem).resolve_left (hne path' hpath')

end Files

/-! ### Scripts -/

/-- A change of the files. -/
inductive Action : Type
  | mkdir (parents : String) (path : Path)
  | touch (path : Path)
  | remove (path : Path)

namespace Action

def text : Action → String
  | mkdir parents path => "mkdir " ++ parents ++ " " ++ path.text
  | touch path => "touch " ++ path.text
  | remove path => "rm -f " ++ path.text

/-- A file can only be created in a directory that exists. -/
def CanRun (files : Files) : Action → Prop
  | mkdir _ _ | remove _ => True
  | touch path => files.HasDirectory path.directory

instance (files : Files) (a : Action) : Decidable (a.CanRun files) := by
  cases a with
  | mkdir | remove => exact instDecidableTrue
  | touch path => exact inferInstanceAs (Decidable (files.HasDirectory path.directory))

def run (files : Files) : Action → Files
  | mkdir _ path | touch path => files.create path
  | remove path => files.remove path

theorem records_run (files : Files) (a : Action) : files.Records (a.run files) := by
  cases a with
  | mkdir _ path | touch path => exact files.records_create path
  | remove path => exact files.records_remove path

end Action

inductive Command : Type
  | comment (text : String)
  | act (a : Action)
  /-- The second command, if the first one succeeds. -/
  | andThen (a : Action) (c : Command)
  | seq (c c' : Command)
  /-- Run a program until it ends. -/
  | run (program : String)
  /-- Start a program and remember its process id. -/
  | background (program pid : String)
  | ifMissing (path : Path) (c : Command)
  /-- Wait until something is created in a directory. -/
  | awaitCreate (directory : String)
  | sleep (seconds : ℕ)
  | kill (pid : String)

/-- The text of a command; the body of a conditional is indented and closed as given. -/
def Command.text (indent close : String) : Command → String
  | comment text => "# " ++ text
  | act a => a.text
  | andThen a c => a.text ++ " && " ++ c.text indent close
  | seq c c' => c.text indent close ++ "\n" ++ c'.text indent close
  | run program => program
  | background program pid => program ++ " & " ++ pid ++ "=$!"
  | ifMissing path c =>
    "if [ ! -f \"" ++ path.text ++ "\" ]; then\n" ++ indent ++ c.text indent close ++ close
  | awaitCreate directory => "inotifywait -qq --event create " ++ directory
  | sleep seconds => "sleep " ++ toString seconds
  | kill pid => "kill $" ++ pid

/-! ### Processes -/

structure Process where
  /-- What is still to be executed. -/
  commands : List Command
  /-- How many creations there were when the wait began that is the first command. -/
  watch : Option ℕ
  /-- How many creations there were when a file was last found missing. -/
  checked : ℕ
  /-- A command has failed. -/
  failed : Bool

namespace Process

def start (commands : List Command) : Process := ⟨commands, none, 0, false⟩

/-- The script ends early. -/
def exit (p : Process) : Process := { p with commands := [], watch := none, failed := true }

/-- The next step of a process. What can fail succeeds only if `ok` is true. -/
def step (ok : Bool) (files : Files) (p : Process) : Files × Process :=
  match p.commands with
  | [] => (files, p)
  | .act a :: rest =>
    if ok = true ∧ a.CanRun files then (a.run files, { p with commands := rest })
    else (files, p.exit)
  | .andThen a c :: rest =>
    if ok = true ∧ a.CanRun files then (a.run files, { p with commands := c :: rest })
    else (files, { p with commands := rest, failed := true })
  | .seq c c' :: rest => (files, { p with commands := c :: c' :: rest })
  | .run _ :: rest => (files, if ok = true then { p with commands := rest } else p.exit)
  | .comment _ :: rest | .background _ _ :: rest | .sleep _ :: rest | .kill _ :: rest =>
    (files, { p with commands := rest })
  | .ifMissing path c :: rest =>
    if path ∈ files.paths then (files, { p with commands := rest })
    else (files, { p with commands := c :: rest, checked := files.created.length })
  | .awaitCreate directory :: rest =>
    match p.watch with
    | none =>
      if ok = true ∧ files.HasDirectory directory then
        (files, { p with watch := some files.created.length })
      else (files, p.exit)
    | some n =>
      if ∃ path ∈ files.created.drop n, path.directory = directory then
        (files, { p with commands := rest, watch := none })
      else (files, p)

/-- **Every step is recorded.** -/
theorem records_step (ok : Bool) (files : Files) (p : Process) :
    files.Records (p.step ok files).1 := by
  unfold step
  split
  · exact .refl files
  · split
    · exact Action.records_run files _
    · exact .refl files
  · split
    · exact Action.records_run files _
    · exact .refl files
  · exact .refl files
  · exact .refl files
  · exact .refl files
  · exact .refl files
  · exact .refl files
  · exact .refl files
  · split
    · exact .refl files
    · exact .refl files
  · split
    · split
      · exact .refl files
      · exact .refl files
    · split
      · exact .refl files
      · exact .refl files

end Process

end StackableOperator.WatchedFiles
