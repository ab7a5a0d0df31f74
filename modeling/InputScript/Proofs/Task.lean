import InputScript.Proofs.Run
import InputScript.Proofs.Validation
import InputScript.Runner

/-!
# Tasks

A runner runs commands, scripts that are given by their lines, and scripts that are given by a path.
A `Task` is one of these.  It comes to a launch of the machine, unless there is a path and the file
cannot be opened (`Task.outcome_cases`).
-/

namespace InputScript

open Device (Sink)

variable {σ ω : Type} [Host σ] [Sink ω]

/-- What a runner is asked to run. -/
inductive Task
  | command (words : List String)
  | lines (text : List Script.RawLine) (name : Option String)
  | path (file : String) (name : Option String)

namespace Task

open Machine (Launch Outcome)

/-- Runs a task. -/
def run (task : Task) (fuel : Nat) (r : Runner σ ω) : RunResult × Runner σ ω :=
  match task with
  | .command words => r.runCommand fuel words
  | .lines text name => r.runLines fuel text name
  | .path file name => r.runPath fuel file name

/-- What comes of a script that is to be opened. -/
def opened (settings : Settings) (fuel : Nat) (source : String) :
    Except (Trouble Failure) Machine.Feed → Session σ ω → Outcome × Session σ ω
  | .ok feed, s => (Launch.script source feed).run settings fuel s
  | .error (.fault f), s => (.failure f, s)
  | .error (.crash c), s => (.crash c, s)

/-- The run of a task, before the runner notes a failure. -/
def outcome (task : Task) (settings : Settings) (fuel : Nat) (s : Session σ ω) :
    Outcome × Session σ ω :=
  match task with
  | .command words => (Launch.command words).run settings fuel s
  | .lines text name =>
    (Launch.script (Runner.sourceName name "-") { pending := some text }).run settings fuel s
  | .path file name =>
    let r := (Machine.openFeed file).exec s
    opened settings fuel (Runner.sourceName name file) r.1 r.2

theorem run_eq (task : Task) (fuel : Nat) (r : Runner σ ω) :
    task.run fuel r = r.conclude (task.outcome r.settings fuel r.session) := by
  cases task with
  | command words => rfl
  | lines text name => rfl
  | path file name =>
      rw [run, Runner.runPath, outcome]
      rcases (Machine.openFeed file).exec r.session with ⟨(f | c) | feed, s⟩ <;> rfl

/-- A run changes nothing of the runner but its session. -/
theorem runner_run (task : Task) (fuel : Nat) (r : Runner σ ω) :
    (task.run fuel r).2 = { r with session := (task.run fuel r).2.session } := by
  rw [run_eq]
  rcases task.outcome r.settings fuel r.session with ⟨_ | _ | _, s⟩ <;> rfl

/-- What the machine is launched with for a task. -/
inductive Launches (s : Session σ ω) : Task → Launch → Prop
  | command (words : List String) : Launches s (.command words) (.command words)
  | lines (text : List Script.RawLine) (name : Option String) :
      Launches s (.lines text name) (.script (Runner.sourceName name "-") { pending := some text })
  | path {file : String} {name : Option String} {feed : Machine.Feed}
      (hopen : (Machine.openFeed file).exec s = (.ok feed, s)) :
      Launches s (.path file name) (.script (Runner.sourceName name file) feed)

/-- A task launches the machine, unless its file cannot be opened. -/
theorem outcome_cases (task : Task) (settings : Settings) (fuel : Nat) (s : Session σ ω) :
    (∃ launch, task.Launches s launch ∧
      task.outcome settings fuel s = launch.run settings fuel s) ∨
    (∃ f, task.outcome settings fuel s = (.failure f, s)) ∨
    ∃ file name, task = .path file name ∧ hasNul file = true ∧
      task.outcome settings fuel s = (.crash .embeddedNul, s) := by
  cases task with
  | command words => exact .inl ⟨_, .command words, rfl⟩
  | lines text name => exact .inl ⟨_, .lines text name, rfl⟩
  | path file name =>
      rcases Machine.exec_openFeed file s with ⟨feed, hopen⟩ | ⟨f, hopen⟩ | ⟨hnul, hopen⟩
      · refine .inl ⟨_, .path hopen, ?_⟩
        rw [outcome, hopen]
        rfl
      · refine .inr (.inl ⟨f, ?_⟩)
        rw [outcome, hopen]
        rfl
      · refine .inr (.inr ⟨file, name, rfl, hnul, ?_⟩)
        rw [outcome, hopen]
        rfl

end Task

/-- A runner that has run nothing yet, and records what it writes. -/
def newRunner : Runner Sandbox Device.Recorder := { session := Machine.idle }

end InputScript
