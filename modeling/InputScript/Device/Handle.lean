import InputScript.Session

/-!
# The device handle

The device is created by the first primitive that needs it, or explicitly, and then given time to
settle. Primitives emit their events in order and end the frame only if asked to. Values are checked
before anything is opened or emitted.
-/

namespace InputScript.Device

variable {σ ω : Type} [Host σ] [Sink ω]

/-- Calls the sink: keeps its new state and its notes, and hands back its result. -/
def callSink (call : ω → Reply ω) : Act σ ω (Except SystemError Unit) := do
  let s ← get
  let reply := call s.sink
  set { s with sink := reply.sink, journal := reply.notes.reverse ++ s.journal }
  return reply.result

/-- Creates the device unless it exists, and waits for it to settle. -/
def openDevice (p : Profile) : Act σ ω Unit := do
  if (← get).isOpen then return
  match ← callSink (Sink.create (.ofProfile p) (.ofProfile p)) with
  | .error e =>
    Act.note (.deviceSetupFailed p.path e.toText)
    Act.fail (.deviceSetup p.path e)
  | .ok () =>
    modify fun s => { s with isOpen := true, sysname := Sink.sysname s.sink }
    Act.note (.deviceOpened p.path (← get).sysname p.traits)
    Act.note (.deviceSettling p.settleTime)
    Act.wait p.settleTime

/-- Destroys the device if it exists. A failure to destroy it is only noted. -/
def closeDevice : Act σ ω Unit := do
  if (← get).isOpen then
    modify fun s => { s with isOpen := false }
    match ← callSink Sink.destroy with
    | .error e => Act.note (.deviceCloseFailed e.toText)
    | .ok () => Act.note (.deviceClosed (← get).sysname)

/-- Writes one event. -/
def emit (e : Event) : Act σ ω Unit := do
  Act.note (.eventEmitted e.type e.code e.value)
  match ← callSink (Sink.write e) with
  | .error error => Act.fail (.deviceWrite error)
  | .ok () => return

/-- Writes events in order. -/
def emitAll : List Event → Act σ ω Unit
  | [] => return
  | e :: rest => do
    emit e
    emitAll rest

/-- Ends a list of events with a sync if asked to. -/
def framed (events : List Event) (sync : Bool) : List Event :=
  if sync then events ++ [.sync] else events

/-- Opens the device if needed and writes events. -/
def deliver (p : Profile) (events : List Event) : Act σ ω Unit := do
  openDevice p
  emitAll events

/-- Ends the current frame. -/
def sync (p : Profile) : Act σ ω Unit := deliver p [.sync]

/-- Presses or releases a key. -/
def key (p : Profile) (code : Int) (pressed : Bool) (sync : Bool := false) : Act σ ω Unit :=
  deliver p (framed [.key code pressed] sync)

/-! ## Axes -/

/-- The companion of an axis that may be any integer. -/
def companion? : Int → Option Nat
  | .ofNat axis => fineAxis? axis
  | .negSucc _ => none

/-- The axis values that a relative motion reports: the delta itself, and on a wheel the same motion
in fine units. -/
def relativeValues (axis : Int) (delta : Binary64) : List (Int × Binary64) :=
  match companion? axis with
  | some fine => [(axis, delta), (fine, delta * .ofNat fineUnits)]
  | none => [(axis, delta)]

/-- The integer value of a number that is known to be finite. -/
def wholeValue (x : Binary64) : Int :=
  match x.truncate with
  | .ok n => n
  | .error _ => 0

/-- The events of a relative motion, if every value fits. -/
def relativeEvents (axis : Int) (delta : Binary64) (verb : Option String) :
    Except Fault (List Event) :=
  let values := relativeValues axis delta
  if values.all fun (_, x) => Argument.fitsInt32 x then
    .ok (values.map fun (code, x) => .relative code (wholeValue x))
  else .error (.axisRange verb delta)

/-- Moves a relative axis. -/
def relative (p : Profile) (axis : Int) (delta : Binary64) (sync : Bool := false)
    (verb : Option String := none) : Act σ ω Unit := do
  let events ← Act.ofExcept id (relativeEvents axis delta verb)
  deliver p (framed events sync)

/-- The axis value of a percentage of the range. -/
def scaleAbsolute (percent : Binary64) (verb : Option String := none) : Except Fault Int :=
  if Argument.isPercent percent then
    .ok (wholeValue (.ofNat axisRange * (percent / .ofNat 100)))
  else .error (.axisRange verb percent)

/-- Sets an absolute axis to a percentage of its range. -/
def absolute (p : Profile) (axis : Int) (percent : Binary64) (sync : Bool := false)
    (verb : Option String := none) : Act σ ω Unit := do
  let value ← Act.ofExcept id (scaleAbsolute percent verb)
  deliver p (framed [.absolute axis value] sync)

end InputScript.Device
