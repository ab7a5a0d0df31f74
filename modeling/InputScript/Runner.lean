import InputScript.Machine.Step

/-!
# The runner

A runner owns one session for all the commands and scripts it runs: the device is created on first
use by any of them and destroyed once, when the runner is closed. Every run that does not crash gives
a result.
-/

namespace InputScript

open Device (Sink)

/-- One session with its settings. -/
structure Runner (σ ω : Type) where
  settings : Settings := {}
  session : Session σ ω
  closed : Bool := false

/-- How a run went. -/
inductive RunStatus
  | success
  /-- The script was in error; the next run may proceed. -/
  | scriptError
  /-- The device failed. -/
  | fatal
deriving DecidableEq, Repr

def RunStatus.name : RunStatus → String
  | .success => "success"
  | .scriptError => "script_error"
  | .fatal => "fatal"

/-- What a run answers. -/
inductive RunResult
  | success
  | failed (failure : Failure)
  /-- The run ended without a report. -/
  | crashed (crash : Crash)
deriving DecidableEq, Repr

/-- The status of a run, if it did not crash. -/
def RunResult.status? : RunResult → Option RunStatus
  | .success => some .success
  | .failed failure => some (if failure.fatal then .fatal else .scriptError)
  | .crashed _ => none

namespace Runner

variable {σ ω : Type} [Host σ] [Sink ω]

/-- Notes a failure and gives the result of a run. -/
def conclude (r : Runner σ ω) (ended : Machine.Outcome × Session σ ω) :
    RunResult × Runner σ ω :=
  let (outcome, session) := ended
  match outcome with
  | .success => (.success, { r with session })
  | .crash c => (.crashed c, { r with session })
  | .failure f =>
    let session := { session with journal := .runFailed f.report :: session.journal }
    (.failed f, { r with session })

/-- Runs one command given as words. -/
def runCommand (r : Runner σ ω) (fuel : Nat) (words : List String) : RunResult × Runner σ ω :=
  r.conclude (Machine.runCommand r.settings fuel words r.session)

/-- The name of a script: the one given, unless it is missing or empty. -/
def sourceName (name : Option String) (default : String) : String :=
  match name with
  | some name => if name.isEmpty then default else name
  | none => default

/-- Runs a script given by its lines. -/
def runLines (r : Runner σ ω) (fuel : Nat) (lines : List Script.RawLine)
    (name : Option String := none) : RunResult × Runner σ ω :=
  r.conclude (Machine.runScript r.settings fuel (sourceName name "-")
    { pending := some lines } r.session)

/-- Runs a script given by its path; a dash is the standard input. -/
def runPath (r : Runner σ ω) (fuel : Nat) (path : String) (name : Option String := none) :
    RunResult × Runner σ ω :=
  match (Machine.openFeed path).exec r.session with
  | (.ok feed, session) =>
    r.conclude (Machine.runScript r.settings fuel (sourceName name path) feed session)
  | (.error (.fault f), session) => r.conclude (.failure f, session)
  | (.error (.crash c), session) => r.conclude (.crash c, session)

/-- Destroys the device, if it exists; only the first call has an effect. -/
def close (r : Runner σ ω) : Runner σ ω :=
  if r.closed then r
  else { r with closed := true, session := (Device.closeDevice.exec r.session).2 }

end Runner

end InputScript
