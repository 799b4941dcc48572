import Mathlib
import StackableOperator.Machines.WatchedFiles

/-!
# Shutting down the log agent

The Vector container of a pod ships the logs of the other containers. It is shut down by a file
which the application container creates after the application has ended, and which it removes before
the application starts. `createVectorShutdownFileCommand` and `removeVectorShutdownFileCommand` are
the commands for this, and `vectorContainerArgs` and `V2.vectorContainerArgs` are the scripts of the
Vector container. They wait for the file only if it is missing.

`VectorShutdown.Pod.outlives_application` is about all runs of such a pod, with containers that end
and are restarted at any time. Vector does not shut down before the application has ended. The check
and the wait are two steps, though, and `VectorShutdown.Pod.hangs_iff` says what this costs: if the
file is created between them, then Vector waits for ever.
-/

namespace StackableOperator

open WatchedFiles

/-! ### The scripts -/

def stackableConfigDir : String := "/stackable/config"

def stackableLogDir : String := "/stackable/log"

/-- The subdirectory with the files to control Vector. -/
def vectorLogDir : String := "_vector"

/-- The subdirectory with the state of Vector. -/
def vectorStateDir : String := "_vector-state"

def shutdownFile : String := "shutdown"

def vectorConfigFile : String := "vector.yaml"

def createVectorShutdownFileCommand (stackableLogDir : String) : String :=
  "mkdir -p " ++ stackableLogDir ++ "/" ++ vectorLogDir ++ " && touch " ++ stackableLogDir ++ "/" ++
    vectorLogDir ++ "/" ++ shutdownFile

def removeVectorShutdownFileCommand (stackableLogDir : String) : String :=
  "rm -f " ++ stackableLogDir ++ "/" ++ vectorLogDir ++ "/" ++ shutdownFile

def vectorContainerArgs : String :=
  "mkdir --parents " ++ stackableLogDir ++ "/" ++ vectorStateDir ++ "\n" ++
  "# Vector will ignore SIGTERM (as PID != 1) and must be shut down by writing a " ++
  "shutdown trigger file\n" ++
  "vector --config " ++ stackableConfigDir ++ "/" ++ vectorConfigFile ++ " & vector_pid=$!\n" ++
  "if [ ! -f \"" ++ stackableLogDir ++ "/" ++ vectorLogDir ++ "/" ++ shutdownFile ++
  "\" ]; then\n" ++
  "  mkdir -p " ++ stackableLogDir ++ "/" ++ vectorLogDir ++ " && " ++
  "inotifywait -qq --event create " ++ stackableLogDir ++ "/" ++ vectorLogDir ++ "; " ++
  "fi\n" ++
  "sleep 1\n" ++
  "kill $vector_pid\n"

def V2.vectorContainerArgs : String :=
  let vectorControlDirectory := stackableLogDir ++ "/" ++ vectorLogDir
  "mkdir --parents " ++ stackableLogDir ++ "/" ++ vectorStateDir ++ "\n" ++
  "# Vector will ignore SIGTERM (as PID != 1) and must be shut down by writing a " ++
  "shutdown trigger file\n" ++
  "vector & vector_pid=$!\n" ++
  "if [ ! -f \"" ++ vectorControlDirectory ++ "/" ++ shutdownFile ++ "\" ]; then\n" ++
  "mkdir -p " ++ vectorControlDirectory ++ "\n" ++
  "inotifywait -qq --event create " ++ vectorControlDirectory ++ ";\n" ++
  "fi\n" ++
  "sleep 1\n" ++
  "kill $vector_pid"

namespace VectorShutdown

/-! ### Commands -/

def controlDirectory : Path := ⟨stackableLogDir, vectorLogDir⟩

def trigger : Path := ⟨controlDirectory.text, shutdownFile⟩

/-- The two versions of the Vector container. -/
inductive Version : Type
  | v1
  | v2

namespace Version

def program : Version → String
  | v1 => "vector --config " ++ stackableConfigDir ++ "/" ++ vectorConfigFile
  | v2 => "vector"

def wait : Command := .awaitCreate controlDirectory.text

/-- What is done if the file is missing. -/
def onMissing : Version → Command
  | v1 => .andThen (.mkdir "-p" controlDirectory) wait
  | v2 => .seq (.act (.mkdir "-p" controlDirectory)) wait

/-- What is done after the wait. -/
def tail : List Command := [.sleep 1, .kill "vector_pid"]

def script (v : Version) : List Command :=
  [.act (.mkdir "--parents" ⟨stackableLogDir, vectorStateDir⟩),
    .comment ("Vector will ignore SIGTERM (as PID != 1) and must be shut down by writing a " ++
      "shutdown trigger file"),
    .background v.program "vector_pid",
    .ifMissing trigger v.onMissing] ++ tail

end Version

/-- The application container. -/
def applicationScript (program : String) : List Command :=
  [.act (.remove trigger), .run program,
    .andThen (.mkdir "-p" controlDirectory) (.act (.touch trigger))]

set_option maxRecDepth 8000 in
theorem vectorContainerArgs_eq :
    vectorContainerArgs =
      "\n".intercalate (Version.v1.script.map (Command.text "  " "; fi")) ++ "\n" := rfl

set_option maxRecDepth 8000 in
theorem v2_vectorContainerArgs_eq :
    V2.vectorContainerArgs =
      "\n".intercalate (Version.v2.script.map (Command.text "" ";\nfi")) := rfl

theorem applicationScript_text (program : String) :
    (applicationScript program).map (Command.text "" "") =
      [removeVectorShutdownFileCommand stackableLogDir, program,
        createVectorShutdownFileCommand stackableLogDir] := rfl

/-! ### Pods -/

/-- A pod with an application and a Vector container, which share the log directory. -/
structure Pod where
  files : Files
  application : Process
  vector : Process

/-- What happens in a pod. -/
inductive Event : Type
  | application (ok : Bool)
  | vector (ok : Bool)
  /-- A log file is written. -/
  | write (path : Path)
  | exitApplication
  | exitVector
  | restartApplication
  | restartVector

/-- A container is restarted, or ends while it waits. -/
def Event.isRestart : Event → Bool
  | .exitVector | .restartApplication | .restartVector => true
  | _ => false

def Event.isVector : Event → Bool
  | .vector _ => true
  | _ => false

/-- Something happens in the application container. -/
def Event.isApplication : Event → Bool
  | .application _ | .exitApplication | .restartApplication => true
  | _ => false

namespace Pod

section

variable (v : Version) (program : String)

def start : Pod where
  files := ⟨{⟨"/stackable", "log"⟩}, []⟩
  application := .start (applicationScript program)
  vector := .start v.script

def next (pod : Pod) : Event → Pod
  | .application ok =>
    let result := pod.application.step ok pod.files
    { pod with files := result.1, application := result.2 }
  | .vector ok =>
    let result := pod.vector.step ok pod.files
    { pod with files := result.1, vector := result.2 }
  | .write path =>
    -- the logs are in other directories
    if path.directory = controlDirectory.text then pod
    else { pod with files := pod.files.create path }
  | .exitApplication => { pod with application := pod.application.exit }
  | .exitVector => { pod with vector := pod.vector.exit }
  | .restartApplication => { pod with application := .start (applicationScript program) }
  | .restartVector => { pod with vector := .start v.script }

/-- A run through any events. -/
def after (pod : Pod) (events : List Event) : Pod := events.foldl (next v program) pod

end

end Pod

/-! ### Invariants -/

/-- The only file in the directory that controls Vector is the trigger. -/
structure Controlled (files : Files) : Prop where
  created : ∀ path ∈ files.created, path.directory = controlDirectory.text → path = trigger
  paths : trigger ∈ files.paths → trigger ∈ files.created

/-- The file was missing when the first `n` paths had been created. -/
structure Missed (files : Files) (n : ℕ) : Prop where
  le : n ≤ files.created.length
  created : trigger ∈ files.paths → trigger ∈ files.created.drop n

/-- What holds at each point of the application container. -/
inductive ApplicationAt (program : String) (files : Files) : List Command → Bool → Prop
  | starting : ApplicationAt program files (applicationScript program) false
  | running : trigger ∉ files.paths →
      ApplicationAt program files ((applicationScript program).drop 1) false
  | ended : trigger ∉ files.paths →
      ApplicationAt program files ((applicationScript program).drop 2) false
  | signalling : trigger ∉ files.paths → ApplicationAt program files [.act (.touch trigger)] false
  | finished : trigger ∈ files.paths → ApplicationAt program files [] false
  | failed : ApplicationAt program files [] true

/-- What holds at each point of the Vector container. -/
inductive VectorAt (v : Version) (files : Files) : Process → Prop
  | starting {c k : ℕ} : k ≤ 3 → VectorAt v files ⟨v.script.drop k, none, c, false⟩
  | missing {c : ℕ} : Missed files c →
      VectorAt v files ⟨v.onMissing :: Version.tail, none, c, false⟩
  | preparing {c : ℕ} : Missed files c →
      VectorAt v files
        ⟨.act (.mkdir "-p" controlDirectory) :: Version.wait :: Version.tail, none, c, false⟩
  | arriving {c : ℕ} : Missed files c →
      VectorAt v files ⟨Version.wait :: Version.tail, none, c, false⟩
  | waiting {c n : ℕ} : Missed files c → c ≤ n → n ≤ files.created.length →
      VectorAt v files ⟨Version.wait :: Version.tail, some n, c, false⟩
  | stopping {c k : ℕ} : trigger ∈ files.created →
      VectorAt v files ⟨Version.tail.drop k, none, c, false⟩
  | failed {c k : ℕ} : VectorAt v files ⟨Version.tail.drop k, none, c, true⟩

variable {v : Version} {program : String} {files files' : Files}

theorem Controlled.of_leaves (h : Controlled files)
    (hleaves : files.Leaves controlDirectory.text files') (hrecords : files.Records files') :
    Controlled files' where
  created path hpath hdirectory :=
    h.created path (hleaves.created path hdirectory 0 hpath) hdirectory
  paths hpath := hrecords.created.subset (h.paths ((hleaves.paths trigger rfl).mp hpath))

theorem Missed.of_records {n : ℕ} (h : Missed files n) (hrecords : files.Records files') :
    Missed files' n :=
  ⟨h.le.trans hrecords.created.length_le, hrecords.mem_drop h.le h.created⟩

/-- What others do does not harm the application container. -/
theorem ApplicationAt.of_leaves {commands : List Command} {failed : Bool}
    (h : ApplicationAt program files commands failed)
    (hleaves : files.Leaves controlDirectory.text files') :
    ApplicationAt program files' commands failed := by
  have hiff : trigger ∈ files'.paths ↔ trigger ∈ files.paths := hleaves.paths trigger rfl
  cases h with
  | starting => exact .starting
  | running h => exact .running (hiff.not.mpr h)
  | ended h => exact .ended (hiff.not.mpr h)
  | signalling h => exact .signalling (hiff.not.mpr h)
  | finished h => exact .finished (hiff.mpr h)
  | failed => exact .failed

/-- What others do does not harm the Vector container. -/
theorem VectorAt.of_records {p : Process} (h : VectorAt v files p)
    (hrecords : files.Records files') : VectorAt v files' p := by
  cases h with
  | starting hk => exact .starting hk
  | missing h => exact .missing (h.of_records hrecords)
  | preparing h => exact .preparing (h.of_records hrecords)
  | arriving h => exact .arriving (h.of_records hrecords)
  | waiting h hcn hn =>
    exact .waiting (h.of_records hrecords) hcn (hn.trans hrecords.created.length_le)
  | stopping h => exact .stopping (hrecords.created.subset h)
  | failed => exact .failed

/-! ### Steps -/

theorem stackableLogDir_ne : stackableLogDir ≠ controlDirectory.text := by decide

theorem leaves_mkdir (parents name : String) (files : Files) :
    files.Leaves controlDirectory.text ((Action.mkdir parents ⟨stackableLogDir, name⟩).run files) :=
  Files.leaves_create stackableLogDir_ne

theorem Controlled.remove (h : Controlled files) : Controlled (files.remove trigger) :=
  ⟨h.created, fun hmem => absurd hmem (Finset.notMem_erase _ _)⟩

theorem Controlled.create (h : Controlled files) (hmissing : trigger ∉ files.paths) :
    Controlled (files.create trigger) where
  created path hpath hdirectory := by
    rcases Files.mem_created_drop_create (n := 0) hpath with hpath | hpath
    · exact hpath
    · exact h.created path hpath hdirectory
  paths _ := by
    rw [Files.create, if_neg hmissing]
    exact List.mem_append_right _ (List.mem_singleton.mpr rfl)

/-- The application container only removes the trigger, makes its directory, and creates it at the
end. -/
theorem ApplicationAt.step {p : Process} (ok : Bool) (hfiles : Controlled files)
    (h : ApplicationAt program files p.commands p.failed) :
    ApplicationAt program (p.step ok files).1 (p.step ok files).2.commands
        (p.step ok files).2.failed ∧
      Controlled (p.step ok files).1 ∧
      ((p.step ok files).2.commands ≠ [] → p.commands ≠ [] ∧
        (trigger ∈ (p.step ok files).1.created → trigger ∈ files.created)) := by
  obtain ⟨commands, watch, checked, failed⟩ := p
  dsimp only at h
  cases h with
  | starting =>
    simp only [Process.step, applicationScript]
    split
    · exact ⟨.running (Finset.notMem_erase _ _), hfiles.remove, fun _ => ⟨by simp, id⟩⟩
    · exact ⟨.failed, hfiles, fun h => absurd rfl h⟩
  | running h =>
    simp only [Process.step, applicationScript, List.drop_succ_cons, List.drop_zero]
    split
    · exact ⟨.ended h, hfiles, fun _ => ⟨by simp, id⟩⟩
    · exact ⟨.failed, hfiles, fun h => absurd rfl h⟩
  | ended h =>
    simp only [Process.step, applicationScript, List.drop_succ_cons, List.drop_zero]
    split
    · have hleaves := leaves_mkdir "-p" vectorLogDir files
      have hrecords := Action.records_run files (.mkdir "-p" controlDirectory)
      exact ⟨.signalling ((hleaves.paths trigger rfl).not.mpr h),
        hfiles.of_leaves hleaves hrecords, fun _ => ⟨by simp, hleaves.created trigger rfl 0⟩⟩
    · exact ⟨.failed, hfiles, fun h => absurd rfl h⟩
  -- only the last command creates the trigger
  | signalling h =>
    simp only [Process.step]
    split
    · exact ⟨.finished (Files.mem_paths_create.mpr (.inl rfl)), hfiles.create h,
        fun h => absurd rfl h⟩
    · exact ⟨.failed, hfiles, fun h => absurd rfl h⟩
  | finished h => exact ⟨.finished h, hfiles, fun h => absurd rfl h⟩
  | failed => exact ⟨.failed, hfiles, fun h => absurd rfl h⟩

/-- Nothing keeps Vector from ending after the wait. -/
theorem step_tail (ok : Bool) (files : Files) (k c : ℕ) (failed : Bool) :
    (Process.mk (Version.tail.drop k) none c failed).step ok files =
      (files, ⟨Version.tail.drop (k + 1), none, c, failed⟩) := by
  obtain rfl | rfl | hk : k = 0 ∨ k = 1 ∨ 2 ≤ k := by omega
  · rfl
  · rfl
  · have hnil : ∀ j, 2 ≤ j → Version.tail.drop j = [] := fun j hj =>
      List.drop_of_length_le (show Version.tail.length ≤ j from hj)
    rw [hnil k hk, hnil (k + 1) (hk.trans (Nat.le_succ k))]
    rfl

/-- Vector only makes directories. -/
theorem VectorAt.step {p : Process} (ok : Bool) (hfiles : Controlled files)
    (h : VectorAt v files p) :
    VectorAt v (p.step ok files).1 (p.step ok files).2 ∧
      files.Leaves controlDirectory.text (p.step ok files).1 := by
  have hrefl := Files.Leaves.refl controlDirectory.text files
  have hexit : ∀ {c : ℕ}, VectorAt v files ⟨[], none, c, true⟩ := .failed (k := 2)
  cases h with
  | @starting c k hk =>
    have hnext : ∀ {files'}, k + 1 ≤ 3 →
        VectorAt v files' ⟨v.script.drop (k + 1), none, c, false⟩ := .starting
    obtain rfl | rfl | rfl | rfl : k = 0 ∨ k = 1 ∨ k = 2 ∨ k = 3 := by omega
    · simp only [Process.step, Version.script, List.drop_zero, List.cons_append]
      split
      · exact ⟨hnext (by decide), leaves_mkdir "--parents" vectorStateDir files⟩
      · exact ⟨hexit, hrefl⟩
    · exact ⟨hnext (by decide), hrefl⟩
    · exact ⟨hnext (by decide), hrefl⟩
    · simp only [Process.step, Version.script, List.drop_succ_cons, List.drop_zero,
        List.cons_append, List.nil_append]
      split
      · next hmem => exact ⟨.stopping (k := 0) (hfiles.paths hmem), hrefl⟩
      · next hmissing => exact ⟨.missing ⟨le_rfl, fun hmem => absurd hmem hmissing⟩, hrefl⟩
  | missing h =>
    cases v with
    | v1 =>
      simp only [Process.step, Version.onMissing]
      split
      · have hrecords := Action.records_run files (.mkdir "-p" controlDirectory)
        exact ⟨.arriving (h.of_records hrecords), leaves_mkdir "-p" vectorLogDir files⟩
      · exact ⟨.failed (k := 0), hrefl⟩
    | v2 => exact ⟨.preparing h, hrefl⟩
  | preparing h =>
    simp only [Process.step]
    split
    · have hrecords := Action.records_run files (.mkdir "-p" controlDirectory)
      exact ⟨.arriving (h.of_records hrecords), leaves_mkdir "-p" vectorLogDir files⟩
    · exact ⟨hexit, hrefl⟩
  | arriving h =>
    simp only [Process.step, Version.wait]
    split
    · exact ⟨.waiting h h.le le_rfl, hrefl⟩
    · exact ⟨hexit, hrefl⟩
  | @waiting c n h hcn hn =>
    simp only [Process.step, Version.wait]
    split
    · next hex =>
      obtain ⟨path, hpath, hdirectory⟩ := hex
      have hpath : path ∈ files.created := List.mem_of_mem_drop hpath
      exact ⟨.stopping (k := 0) (hfiles.created path hpath hdirectory ▸ hpath), hrefl⟩
    · exact ⟨.waiting h hcn hn, hrefl⟩
  | @stopping c k h => exact step_tail ok files k c false ▸ ⟨.stopping h, hrefl⟩
  | @failed c k => exact step_tail ok files k c true ▸ ⟨.failed, hrefl⟩

/-! ### Runs -/

namespace Pod

/-- The invariant of all runs. -/
structure Inv (v : Version) (program : String) (pod : Pod) : Prop where
  files : Controlled pod.files
  application : ApplicationAt program pod.files pod.application.commands pod.application.failed
  vector : VectorAt v pod.files pod.vector

theorem inv_start (v : Version) (program : String) : Inv v program (start v program) where
  files := {
    created _ hpath := absurd hpath List.not_mem_nil
    paths hpath := absurd hpath
      (show trigger ∉ ({⟨"/stackable", "log"⟩} : Finset Path) by decide) }
  application := .starting
  vector := .starting (k := 0) (by decide)

theorem Inv.next {pod : Pod} (h : Inv v program pod) (e : Event) :
    Inv v program (pod.next v program e) := by
  obtain ⟨hfiles, happlication, hvector⟩ := h
  cases e with
  | application ok =>
    obtain ⟨happlication', hfiles', -⟩ := happlication.step ok hfiles
    exact ⟨hfiles', happlication', hvector.of_records (Process.records_step ok _ _)⟩
  | vector ok =>
    obtain ⟨hvector', hleaves⟩ := hvector.step ok hfiles
    exact ⟨hfiles.of_leaves hleaves (Process.records_step ok _ _),
      happlication.of_leaves hleaves, hvector'⟩
  | write path =>
    simp only [Pod.next]
    split
    · exact ⟨hfiles, happlication, hvector⟩
    · next hne =>
      have hleaves := @Files.leaves_create pod.files _ path hne
      have hrecords := pod.files.records_create path
      exact ⟨hfiles.of_leaves hleaves hrecords, happlication.of_leaves hleaves,
        hvector.of_records hrecords⟩
  | exitApplication => exact ⟨hfiles, .failed, hvector⟩
  | exitVector => exact ⟨hfiles, happlication, .failed (k := 2)⟩
  | restartApplication => exact ⟨hfiles, .starting, hvector⟩
  | restartVector => exact ⟨hfiles, happlication, .starting (k := 0) (by decide)⟩

theorem Inv.after {pod : Pod} (h : Inv v program pod) (events : List Event) :
    Inv v program (pod.after v program events) := by
  induction events generalizing pod with
  | nil => exact h
  | cons e events ih => exact ih (h.next e)

/-- Only the application container creates or removes the trigger, and only as long as it is
running. -/
theorem Inv.leaves_next {pod : Pod} (h : Inv v program pod) {e : Event}
    (he : e.isApplication = false ∨ pod.application.commands = []) :
    pod.files.Leaves controlDirectory.text (pod.next v program e).files := by
  have hrefl := Files.Leaves.refl controlDirectory.text pod.files
  cases e with
  | application ok =>
    rcases he with he | he
    · cases he
    · simp only [Pod.next, Process.step, he]
      exact hrefl
  | vector ok => exact (h.vector.step ok h.files).2
  | write path =>
    simp only [Pod.next]
    split
    · exact hrefl
    · next hne => exact Files.leaves_create hne
  | exitApplication | exitVector | restartApplication | restartVector => exact hrefl

/-- As long as the application container is in its first run, the trigger has never been created. -/
theorem Inv.first_next {pod : Pod} (h : Inv v program pod)
    (hfirst : pod.application.commands ≠ [] → trigger ∉ pod.files.created) {e : Event}
    (he : e ≠ .restartApplication) (hcommands : (pod.next v program e).application.commands ≠ []) :
    trigger ∉ (pod.next v program e).files.created := by
  cases e with
  | application ok =>
    obtain ⟨-, -, hstep⟩ := h.application.step ok h.files
    obtain ⟨hcommands, hcreated⟩ := hstep hcommands
    exact fun hmem => hfirst hcommands (hcreated hmem)
  | vector ok =>
    have hleaves := h.leaves_next (e := .vector ok) (.inl rfl)
    exact fun hmem => hfirst hcommands (hleaves.created trigger rfl 0 hmem)
  | write path =>
    have hleaves := h.leaves_next (e := .write path) (.inl rfl)
    have hsame : (pod.next v program (.write path)).application = pod.application := by
      simp only [Pod.next]
      split <;> rfl
    exact fun hmem => hfirst (hsame ▸ hcommands) (hleaves.created trigger rfl 0 hmem)
  | exitApplication => exact absurd rfl hcommands
  | exitVector | restartVector => exact hfirst hcommands
  | restartApplication => exact absurd rfl he

theorem Inv.first_after {pod : Pod} (h : Inv v program pod)
    (hfirst : pod.application.commands ≠ [] → trigger ∉ pod.files.created) {events : List Event}
    (hevents : .restartApplication ∉ events)
    (hcommands : (pod.after v program events).application.commands ≠ []) :
    trigger ∉ (pod.after v program events).files.created := by
  induction events generalizing pod with
  | nil => exact hfirst hcommands
  | cons e events ih =>
    rw [List.mem_cons, not_or] at hevents
    exact ih (h.next e) (h.first_next hfirst (Ne.symm hevents.1)) hevents.2 hcommands

end Pod

/-- Vector is past its wait only if the trigger was created. -/
theorem VectorAt.created_of_suffix {p : Process} (h : VectorAt v files p)
    (hfailed : p.failed = false) (hcommands : p.commands <:+ Version.tail) :
    trigger ∈ files.created := by
  have hlength : p.commands.length ≤ 2 := hcommands.length_le
  cases h with
  | @starting c k hk =>
    have : v.script.length = 6 := rfl
    simp only [List.length_drop] at hlength
    omega
  | missing | preparing | arriving | waiting => simp [Version.tail] at hlength
  | stopping h => exact h
  | failed => cases hfailed

namespace Pod

/-- **Vector outlives the application.** In every run of the pod, with containers that end and are
restarted at any time, Vector does not get past its wait before the application has properly ended.
If the application container has not been restarted, then it is the first one to end. -/
theorem outlives_application (v : Version) (program : String) (events : List Event)
    (hfailed : ((start v program).after v program events).vector.failed = false)
    (hcommands : ((start v program).after v program events).vector.commands <:+ Version.tail) :
    trigger ∈ ((start v program).after v program events).files.created ∧
      (.restartApplication ∉ events →
        ((start v program).after v program events).application.commands = []) := by
  have hinv := (inv_start v program).after events
  have hcreated := hinv.vector.created_of_suffix hfailed hcommands
  refine ⟨hcreated, fun hevents => by_contra fun hne => ?_⟩
  exact (inv_start v program).first_after (fun _ => List.not_mem_nil) hevents hne hcreated

/-- The application ends before Vector is scheduled. -/
theorem outlives_application_ended :
    let pod := (start .v1 "my-application start").after .v1 "my-application start"
      (List.replicate 4 (.application true) ++ List.replicate 5 (.vector true))
    trigger ∈ pod.files.created ∧ pod.application.commands = [] := by
  have h := outlives_application .v1 "my-application start"
    (List.replicate 4 (.application true) ++ List.replicate 5 (.vector true)) rfl
    ⟨[.sleep 1], rfl⟩
  exact ⟨h.1, h.2 (by simp)⟩

/-! ### The window before the wait -/

theorem records_next (pod : Pod) (e : Event) :
    pod.files.Records (pod.next v program e).files := by
  cases e with
  | application ok | vector ok => exact Process.records_step ok _ _
  | write path =>
    simp only [next]
    split
    · exact .refl _
    · exact pod.files.records_create path
  | exitApplication | exitVector | restartApplication | restartVector => exact .refl _

end Pod

/-- The trigger exists when the application has properly ended. -/
theorem ApplicationAt.mem_of_finished {commands : List Command} {failed : Bool}
    (h : ApplicationAt program files commands failed) (hcommands : commands = [])
    (hfailed : failed = false) : trigger ∈ files.paths := by
  cases h with
  | starting | running | ended | signalling => cases hcommands
  | finished h => exact h
  | failed => cases hfailed

/-- The trigger does not exist while the application is running. -/
theorem ApplicationAt.notMem_of_running {commands : List Command} {failed : Bool}
    (h : ApplicationAt program files commands failed)
    (hcommands : commands = (applicationScript program).drop 1) : trigger ∉ files.paths := by
  have hlength : commands.length = 2 := hcommands ▸ rfl
  cases h with
  | running h => exact h
  | starting | ended | signalling | finished | failed => cases hlength

/-- Vector ends after at most so many steps. -/
inductive Ending (files : Files) : ℕ → Process → Prop
  | waiting {c n : ℕ} : trigger ∈ files.created.drop n →
      Ending files 3 ⟨Version.wait :: Version.tail, some n, c, false⟩
  | tail {c k : ℕ} {failed : Bool} : Ending files (2 - k) ⟨Version.tail.drop k, none, c, failed⟩

theorem Ending.of_records {m : ℕ} {p : Process} (h : Ending files m p)
    (hrecords : files.Records files') : Ending files' m p := by
  cases h with
  | waiting h => exact .waiting ((hrecords.created.drop _).subset h)
  | tail => exact .tail

theorem Ending.step {m : ℕ} {p : Process} (ok : Bool) (h : Ending files m p) :
    Ending files (m - 1) (p.step ok files).2 := by
  cases h with
  | waiting h =>
    have hex : ∃ path ∈ files.created.drop _, path.directory = controlDirectory.text :=
      ⟨trigger, h, rfl⟩
    simp only [Process.step, Version.wait, if_pos hex]
    exact .tail (k := 0)
  | @tail c k failed =>
    rw [step_tail]
    exact .tail (k := k + 1)

theorem Ending.commands_eq_nil {p : Process} (h : Ending files 0 p) : p.commands = [] := by
  generalize hm : 0 = m at h
  cases h with
  | waiting => cases hm
  | @tail c k failed =>
    exact List.drop_of_length_le (show Version.tail.length ≤ k from Nat.le_of_sub_eq_zero hm.symm)

/-- What is known of a Vector container that waits. -/
theorem VectorAt.of_watch {p : Process} {n : ℕ} (h : VectorAt v files p)
    (hwatch : p.watch = some n) :
    p = ⟨Version.wait :: Version.tail, some n, p.checked, false⟩ ∧ Missed files p.checked ∧
      p.checked ≤ n ∧ n ≤ files.created.length := by
  cases h with
  | starting | missing | preparing | arriving | stopping | failed => cases hwatch
  | waiting h hcn hn =>
    cases hwatch
    exact ⟨rfl, h, hcn, hn⟩

/-- A wait goes on as long as the trigger is not created. -/
theorem step_waiting (ok : Bool) {n c : ℕ} (hfiles : Controlled files)
    (h : trigger ∉ files.created.drop n) :
    (Process.mk (Version.wait :: Version.tail) (some n) c false).step ok files =
      (files, ⟨Version.wait :: Version.tail, some n, c, false⟩) := by
  have hnone : ¬∃ path ∈ files.created.drop n, path.directory = controlDirectory.text := by
    rintro ⟨path, hpath, hdirectory⟩
    exact h (hfiles.created path (List.mem_of_mem_drop hpath) hdirectory ▸ hpath)
  simp only [Process.step, Version.wait, if_neg hnone]

namespace Pod

theorem ending_next {pod : Pod} {m : ℕ} (h : Ending pod.files m pod.vector) {e : Event}
    (he : e.isRestart = false) :
    Ending (pod.next v program e).files (m - if e.isVector then 1 else 0)
      (pod.next v program e).vector := by
  cases e with
  | application ok => exact h.of_records (Process.records_step ok _ _)
  | vector ok => exact (h.step ok).of_records (Process.records_step ok _ _)
  | write path =>
    have hsame : (pod.next v program (.write path)).vector = pod.vector := by
      simp only [next]
      split <;> rfl
    exact hsame ▸ h.of_records (pod.records_next (.write path))
  | exitApplication => exact h
  | exitVector | restartApplication | restartVector => cases he

/-- Vector ends if nothing is restarted and it gets enough steps. -/
theorem ending_after {pod : Pod} {m : ℕ} (h : Ending pod.files m pod.vector) {events : List Event}
    (hevents : ∀ e ∈ events, e.isRestart = false) :
    Ending (pod.after v program events).files (m - events.countP Event.isVector)
      (pod.after v program events).vector := by
  induction events generalizing pod m with
  | nil => exact h
  | cons e events ih =>
    rw [List.forall_mem_cons] at hevents
    rw [List.countP_cons, Nat.add_comm, ← Nat.sub_sub]
    exact ih (ending_next h hevents.1) hevents.2

theorem waiting_next {pod : Pod} {n : ℕ} (h : Inv v program pod)
    (hcommands : pod.application.commands = []) (hwatch : pod.vector.watch = some n)
    (hmissed : trigger ∉ pod.files.created.drop n) {e : Event} (he : e.isRestart = false) :
    (pod.next v program e).application.commands = [] ∧
      (pod.next v program e).vector = pod.vector ∧
      trigger ∉ (pod.next v program e).files.created.drop n := by
  have hleaves := h.leaves_next (.inr hcommands) (e := e)
  suffices hsame : (pod.next v program e).application.commands = [] ∧
      (pod.next v program e).vector = pod.vector from
    ⟨hsame.1, hsame.2, fun hmem => hmissed (hleaves.created trigger rfl n hmem)⟩
  cases e with
  | application ok => exact ⟨by simp [next, Process.step, hcommands], rfl⟩
  | vector ok =>
    have heq := (h.vector.of_watch hwatch).1
    have hstep : pod.vector.step ok pod.files = (pod.files, pod.vector) := by
      rw [heq]
      exact step_waiting ok h.files hmissed
    exact ⟨hcommands, congrArg Prod.snd hstep⟩
  | write path =>
    simp only [next]
    split
    · exact ⟨hcommands, rfl⟩
    · exact ⟨hcommands, rfl⟩
  | exitApplication => exact ⟨rfl, rfl⟩
  | exitVector | restartApplication | restartVector => cases he

/-- A Vector container that has missed the trigger waits for ever. -/
theorem waiting_after {pod : Pod} {n : ℕ} (h : Inv v program pod)
    (hcommands : pod.application.commands = []) (hwatch : pod.vector.watch = some n)
    (hmissed : trigger ∉ pod.files.created.drop n) {events : List Event}
    (hevents : ∀ e ∈ events, e.isRestart = false) :
    (pod.after v program events).vector = pod.vector := by
  induction events generalizing pod with
  | nil => rfl
  | cons e events ih =>
    rw [List.forall_mem_cons] at hevents
    obtain ⟨hcommands', hvector, hmissed'⟩ := waiting_next h hcommands hwatch hmissed hevents.1
    exact (ih (h.next e) hcommands' (hvector ▸ hwatch) hmissed' hevents.2).trans hvector

/-- **When Vector hangs.** The application has properly ended, and Vector waits. It waits for ever,
unless a container is restarted, if and only if the trigger was created after Vector had found it
missing and before its wait began, and not again since. Otherwise it ends after three steps. -/
theorem hangs_iff (v : Version) (program : String) (events : List Event) {pod : Pod}
    (hpod : (start v program).after v program events = pod)
    (hcommands : pod.application.commands = []) (hfailed : pod.application.failed = false) {n : ℕ}
    (hwatch : pod.vector.watch = some n) :
    ((∀ later : List Event, (∀ e ∈ later, e.isRestart = false) →
        (pod.after v program later).vector = pod.vector) ↔
      trigger ∈ (pod.files.created.take n).drop pod.vector.checked ∧
        trigger ∉ pod.files.created.drop n) ∧
    (trigger ∈ pod.files.created.drop n → ∀ later : List Event,
      (∀ e ∈ later, e.isRestart = false) → 3 ≤ later.countP Event.isVector →
        (pod.after v program later).vector.commands = []) := by
  have hinv : Inv v program pod := hpod ▸ (inv_start v program).after events
  obtain ⟨hvector, hchecked, hcn, hn⟩ := hinv.vector.of_watch hwatch
  have hends : trigger ∈ pod.files.created.drop n → ∀ later : List Event,
      (∀ e ∈ later, e.isRestart = false) → 3 ≤ later.countP Event.isVector →
        (pod.after v program later).vector.commands = [] := by
    intro hmem later hlater hcount
    have hending : Ending pod.files 3 pod.vector := hvector ▸ .waiting hmem
    have h := @ending_after v program pod 3 hending later hlater
    rw [Nat.sub_eq_zero_of_le hcount] at h
    exact h.commands_eq_nil
  refine ⟨⟨fun hforever => ?_, fun ⟨_, hmissed⟩ later => ?_⟩, hends⟩
  · have hmissed : trigger ∉ pod.files.created.drop n := by
      intro hmem
      have hlater : ∀ e ∈ [Event.vector true, .vector true, .vector true], e.isRestart = false := by
        simp [Event.isRestart]
      have hnil := hends hmem _ hlater le_rfl
      rw [hforever _ hlater, hvector] at hnil
      cases hnil
    -- the trigger exists, but it was missing at the check
    have hmem := hchecked.created (hinv.application.mem_of_finished hcommands hfailed)
    have hsplit : pod.files.created.drop pod.vector.checked =
        (pod.files.created.take n).drop pod.vector.checked ++ pod.files.created.drop n := by
      have hle : pod.vector.checked ≤ (pod.files.created.take n).length := by
        rw [List.length_take]
        exact le_min hcn (hcn.trans hn)
      rw [← List.drop_append_of_le_length hle, List.take_append_drop]
    rw [hsplit, List.mem_append, or_iff_left hmissed] at hmem
    exact ⟨hmem, hmissed⟩
  · exact waiting_after hinv hcommands hwatch hmissed

/-- The application ends when Vector has found the trigger missing and does not wait yet. -/
theorem hangs_iff_overtaken :
    let pod := (start .v1 "my-application start").after .v1 "my-application start"
      (List.replicate 4 (.vector true) ++ List.replicate 4 (.application true) ++
        List.replicate 2 (.vector true))
    (pod.after .v1 "my-application start" (List.replicate 9 (.vector true))).vector.watch =
      some 3 := by
  intro pod
  have hwatch : pod.vector.watch = some 3 := rfl
  have hwindow : trigger ∈ (pod.files.created.take 3).drop pod.vector.checked ∧
      trigger ∉ pod.files.created.drop 3 := ⟨.tail _ (.head _), List.not_mem_nil⟩
  have hsame := (@hangs_iff .v1 "my-application start" _ pod rfl rfl rfl 3 hwatch).1.mpr
    hwindow (List.replicate 9 (.vector true)) (by simp [Event.isRestart])
  rw [hsame, hwatch]

/-! ### Restarts of Vector -/

end Pod

/-- Vector is at its wait or before it, or it has failed, and the trigger was not created during the
wait. -/
structure Up (files : Files) (p : Process) : Prop where
  commands : p.commands <:+ Version.tail → p.failed = true
  created : ∀ n, p.watch = some n → trigger ∉ files.created.drop n

theorem Up.of_length {commands : List Command} {c : ℕ} {failed : Bool}
    (h : 2 < commands.length) : Up files ⟨commands, none, c, failed⟩ where
  commands hsuffix := absurd hsuffix.length_le (Nat.not_le.mpr h)
  created _ hwatch := by cases hwatch

theorem Up.of_failed {commands : List Command} {c : ℕ} : Up files ⟨commands, none, c, true⟩ :=
  ⟨fun _ => rfl, fun _ hwatch => by cases hwatch⟩

theorem Up.of_leaves {p : Process} (h : Up files p)
    (hleaves : files.Leaves controlDirectory.text files') : Up files' p :=
  ⟨h.commands, fun n hwatch hmem => h.created n hwatch (hleaves.created trigger rfl n hmem)⟩

/-- Without the trigger Vector does not get past its wait. -/
theorem VectorAt.up_step {p : Process} (ok : Bool) (h : VectorAt v files p)
    (hfiles : Controlled files) (hmissing : trigger ∉ files.paths) (hup : Up files p) :
    Up files (p.step ok files).2 := by
  cases h with
  | @starting c k hk =>
    -- before the wait: each command leaves the loop ahead
    obtain rfl | rfl | rfl | rfl : k = 0 ∨ k = 1 ∨ k = 2 ∨ k = 3 := by omega
    · simp only [Process.step, Version.script, List.drop_zero, List.cons_append]
      split
      · exact .of_length (by simp [Version.tail])
      · exact .of_failed
    · exact .of_length (Nat.lt_of_sub_eq_succ rfl)
    · exact .of_length (Nat.lt_of_sub_eq_succ rfl)
    · simp only [Process.step, Version.script, List.drop_succ_cons, List.drop_zero,
        List.cons_append, List.nil_append, if_neg hmissing]
      exact .of_length (by simp [Version.tail])
  | missing h =>
    cases v with
    | v1 =>
      simp only [Process.step, Version.onMissing]
      split
      · exact .of_length (by simp [Version.tail])
      · exact .of_failed
    | v2 => exact .of_length (by simp [Version.tail])
  | preparing h =>
    simp only [Process.step]
    split
    · exact .of_length (by simp [Version.tail])
    · exact .of_failed
  | arriving h =>
    simp only [Process.step, Version.wait]
    split
    · refine ⟨(@Up.of_length files _ 0 false (by simp [Version.tail])).commands, ?_⟩
      rintro n ⟨rfl⟩
      simp
    · exact .of_failed
  -- in the wait: nothing was created since
  | waiting h hcn hn =>
    rw [step_waiting ok hfiles (hup.created _ rfl)]
    exact hup
  | stopping => cases hup.commands (List.drop_suffix _ _)
  | failed =>
    rw [step_tail]
    exact .of_failed

namespace Pod

theorem up_next {pod : Pod} (h : Inv v program pod)
    (hrunning : pod.application.commands = (applicationScript program).drop 1)
    (hup : Up pod.files pod.vector) {e : Event} (he : e.isApplication = false) :
    (pod.next v program e).application = pod.application ∧
      Up (pod.next v program e).files (pod.next v program e).vector := by
  have hleaves := h.leaves_next (.inl he)
  have hmissing : trigger ∉ pod.files.paths := h.application.notMem_of_running hrunning
  cases e with
  | vector ok => exact ⟨rfl, (h.vector.up_step ok h.files hmissing hup).of_leaves hleaves⟩
  | write path =>
    have hsame : (pod.next v program (.write path)).application = pod.application ∧
        (pod.next v program (.write path)).vector = pod.vector := by
      simp only [next]
      split
      · exact ⟨rfl, rfl⟩
      · exact ⟨rfl, rfl⟩
    exact ⟨hsame.1, hsame.2 ▸ hup.of_leaves hleaves⟩
  | exitVector => exact ⟨rfl, .of_failed⟩
  | restartVector => exact ⟨rfl, .of_length (Nat.lt_of_sub_eq_succ rfl)⟩
  | application | exitApplication | restartApplication => cases he

theorem up_after {pod : Pod} (h : Inv v program pod)
    (hrunning : pod.application.commands = (applicationScript program).drop 1)
    (hup : Up pod.files pod.vector) {events : List Event}
    (hevents : ∀ e ∈ events, e.isApplication = false) :
    Up (pod.after v program events).files (pod.after v program events).vector := by
  induction events generalizing pod with
  | nil => exact hup
  | cons e events ih =>
    rw [List.forall_mem_cons] at hevents
    obtain ⟨hsame, hup'⟩ := up_next h hrunning hup hevents.1
    exact ih (h.next e) (hsame ▸ hrunning) hup' hevents.2

/-- **No crash loop.** While the application is running, a Vector container that is restarted stays
at its wait, unless it fails, although the application may have ended before. -/
theorem restartVector_stays (v : Version) (program : String) (events : List Event) {pod : Pod}
    (hpod : (start v program).after v program events = pod)
    (hrunning : pod.application.commands = (applicationScript program).drop 1) (later : List Event)
    (hlater : ∀ e ∈ later, e.isApplication = false)
    (hcommands : (pod.after v program (.restartVector :: later)).vector.commands <:+ Version.tail) :
    (pod.after v program (.restartVector :: later)).vector.failed = true := by
  have hinv : Inv v program pod := hpod ▸ (inv_start v program).after events
  have hup : Up pod.files (Process.start v.script) := .of_length (Nat.lt_of_sub_eq_succ rfl)
  exact (up_after (hinv.next .restartVector) hrunning hup hlater).commands hcommands

/-- The application ends, creates the file and is started again. -/
def restartedApplication : List Event :=
  List.replicate 4 (.application true) ++ [.restartApplication, .application true]

/-- The file had been created, and Vector, which is restarted, cannot make its directory. -/
theorem restartVector_stays_failed :
    let pod := (start .v2 "my-application start").after .v2 "my-application start"
      restartedApplication
    trigger ∈ pod.files.created ∧
      (pod.after .v2 "my-application start" [.restartVector, .vector false]).vector.failed = true :=
  ⟨by decide, restartVector_stays .v2 "my-application start" restartedApplication rfl rfl
    [.vector false] (by simp [Event.isApplication]) ⟨Version.tail, rfl⟩⟩

end Pod

end VectorShutdown

end StackableOperator
