import InputScript.Device.Sink
import InputScript.Fault

/-!
# Sessions

A session is everything that scripts share while they run: the host, the device and its sink, the
environment, the text echoed so far, the lines left on standard input, and the journal. An action
works on a session and either answers or is in trouble; the session it leaves is kept in both cases.
-/

namespace InputScript

/-- The shared state of all runs. -/
structure Session (σ ω : Type) where
  host : σ
  sink : ω
  /-- Whether the device exists. -/
  isOpen : Bool := false
  /-- The name the system gave the device when it was last opened. -/
  sysname : Option String := none
  environment : Environment := []
  /-- What was echoed, last piece first. -/
  echoed : List String := []
  /-- The physical lines left on standard input. -/
  input : List Script.RawLine := []
  /-- The notes made, last first. -/
  journal : List Note := []

namespace Session

variable {σ ω : Type}

/-- The text echoed so far. -/
def output (s : Session σ ω) : String := String.join s.echoed.reverse

/-- The notes made so far, in order. -/
def notes (s : Session σ ω) : List Note := s.journal.reverse

end Session

/-- A computation on a session. -/
abbrev Act (σ ω : Type) := ExceptT (Trouble Failure) (StateM (Session σ ω))

namespace Act

variable {σ ω α : Type}

/-- Runs an action. -/
def exec (act : Act σ ω α) (s : Session σ ω) : Except (Trouble Failure) α × Session σ ω :=
  StateT.run (ExceptT.run act) s

/-- Fails without a position. -/
def fail (fault : Fault) : Act σ ω α := throw (.fault { fault })

/-- Ends the run without a report. -/
def crash (c : Crash) : Act σ ω α := throw (.crash c)

/-- Makes a note. -/
def note (n : Note) : Act σ ω Unit :=
  modify fun s => { s with journal := n :: s.journal }

/-- Makes several notes in order. -/
def noteAll (ns : List Note) : Act σ ω Unit :=
  modify fun s => { s with journal := ns.reverse ++ s.journal }

/-- Takes the answer of a computation that has faults of one kind and may crash. -/
def lift {ε : Type} (wrap : ε → Fault) : Except (Trouble ε) α → Act σ ω α
  | .ok a => pure a
  | .error (.fault e) => fail (wrap e)
  | .error (.crash c) => crash c

/-- Takes the answer of a computation that has faults of one kind. -/
def ofExcept {ε : Type} (wrap : ε → Fault) : Except ε α → Act σ ω α
  | .ok a => pure a
  | .error e => fail (wrap e)

variable [Host σ]

/-- Reads the host's clock. -/
def readClock : Act σ ω Binary64 := do
  let s ← get
  let (now, host) := Clock.read s.host
  set { s with host }
  return now

/-- Runs a program of the host with the variables of the session. -/
def spawn (argv : List String) : Act σ ω (Except SystemError Finished) := do
  let s ← get
  let (result, host) := Host.run argv s.environment s.host
  set { s with host }
  return result

/-- Waits on the host's clock. -/
def wait (delay : Binary64) : Act σ ω Unit := do
  let s ← get
  let (ended, host) := waitFor delay s.host
  set { s with host }
  if ended then return else crash .endless

end Act

end InputScript
