import InputScript.Device.Event
import InputScript.Journal
import InputScript.SystemError

/-!
# Sinks

A sink is where a device ends up: it is created, written to and destroyed, and each of these may fail
with a system error. Two sinks are given here. The recorder keeps the events in memory; it serves dry
runs, and it can be told to fail. The kernel sink drives a virtual device of the operating system,
of which it keeps the calls made.
-/

namespace InputScript.Device

/-- The outcome of a call on a sink, with the notes it makes. -/
structure Reply (ω : Type) where
  result : Except SystemError Unit
  sink : ω
  notes : List Note := []

/-- A low-level receiver of a device and its events. -/
class Sink (ω : Type) where
  create : Capabilities → Identity → ω → Reply ω
  write : Event → ω → Reply ω
  destroy : ω → Reply ω
  /-- The name the system gave the device, if it is known. -/
  sysname : ω → Option String

/-! ## The recorder -/

/-- When a recorder fails. -/
structure Faults where
  /-- How many creations are still to be refused. -/
  refusedCreations : Nat := 0
  /-- How many writes succeed, if not all. -/
  writeLimit : Option Nat := none
  /-- Whether destroying the device fails. -/
  destroyFails : Bool := false
deriving DecidableEq, Repr

/-- A sink in memory. -/
structure Recorder where
  /-- Whether events are noted in the journal. -/
  dryRun : Bool := false
  faults : Faults := {}
  declared : Option (Capabilities × Identity) := none
  /-- The recorded events, last first. -/
  reversed : List Event := []
  /-- How many writes succeeded so far. -/
  written : Nat := 0
  created : Nat := 0
  destroyed : Nat := 0
deriving DecidableEq, Repr

namespace Recorder

/-- The recorded events in the order of their writing. -/
def events (r : Recorder) : List Event := r.reversed.reverse

def create (caps : Capabilities) (identity : Identity) (r : Recorder) : Reply Recorder :=
  match r.faults.refusedCreations with
  | n + 1 =>
    { result := .error (.errno .permission none)
      sink := { r with faults := { r.faults with refusedCreations := n } } }
  | 0 =>
    { result := .ok ()
      sink := { r with declared := some (caps, identity), created := r.created + 1 }
      notes := if r.dryRun then [.dryRunCreated identity.name] else [] }

/-- Whether the next write fails. -/
def isFull (r : Recorder) : Bool :=
  match r.faults.writeLimit with
  | some limit => limit ≤ r.written
  | none => false

def write (e : Event) (r : Recorder) : Reply Recorder :=
  if r.isFull then { result := .error (.errno .noDevice none), sink := r }
  else
    { result := .ok ()
      sink := { r with reversed := e :: r.reversed, written := r.written + 1 }
      notes := if r.dryRun then [.dryRunEvent e.type e.code e.value] else [] }

/-- A write that does not fail adds its event at the end. -/
@[simp] theorem events_write {e : Event} {r : Recorder} (h : r.isFull = false) :
    (write e r).sink.events = r.events ++ [e] := by
  simp [write, events, h]

/-- A write that fails adds nothing. -/
@[simp] theorem events_write_of_isFull {e : Event} {r : Recorder} (h : r.isFull = true) :
    (write e r).sink.events = r.events := by
  simp [write, h]

def destroy (r : Recorder) : Reply Recorder :=
  { result := if r.faults.destroyFails then .error (.errno .inputOutput none) else .ok ()
    sink := { r with destroyed := r.destroyed + 1 } }

def sysname (r : Recorder) : Option String := if r.dryRun then some "dry-run" else none

instance : Sink Recorder := ⟨create, write, destroy, sysname⟩

/-- Forgets the events recorded so far. -/
def clear (r : Recorder) : Recorder := { r with reversed := [] }

/-- The recorded events by frame. -/
def frames (r : Recorder) : List (List Event) := Device.frames r.events

end Recorder

/-! ## The kernel sink -/

/-- A call on a virtual device. -/
inductive Call
  | write (event : Event)
  | sync
  | close
deriving DecidableEq, Repr

/-- What a virtual device was made from. -/
structure Construction where
  /-- The declared event types with their keys and axes, in the order keys, relative, absolute. -/
  keys : Option (List Int)
  relativeAxes : Option (List Int)
  absoluteAxes : Option (List (Int × AxisRange))
  identity : Identity
  path : String
  properties : List Int
deriving DecidableEq, Repr

/-- A virtual device and the calls made on it, last first. -/
structure VirtualDevice where
  construction : Construction
  /-- Where its events can be read. -/
  node : Option String
  calls : List Call := []
deriving DecidableEq, Repr

/-- Records a call on a device. -/
def VirtualDevice.call (d : VirtualDevice) (c : Call) : VirtualDevice :=
  { d with calls := c :: d.calls }

/-- How the kernel misbehaves. -/
inductive Misbehaviour
  | none
  /-- The control node cannot be opened. -/
  | create
  /-- The construction is refused. -/
  | refuse
  | write
  | close
deriving DecidableEq, Repr

/-- A sink that makes virtual devices. -/
structure Kernel where
  path : String := "/dev/uinput"
  device : Option VirtualDevice := none
  /-- The node of the next device. -/
  node : Option String := some "/dev/input/event7"
  misbehaviour : Misbehaviour := .none
  /-- The devices made so far and no longer in use, last first. -/
  retired : List VirtualDevice := []
deriving DecidableEq, Repr

namespace Kernel

/-- Keeps a part of the declaration if its event type is declared. -/
def ifDeclared {α : Type} (caps : Capabilities) (type : EventType) (part : α) : Option α :=
  if caps.eventTypes.contains (type.code : Int) then some part else none

def construction (k : Kernel) (caps : Capabilities) (identity : Identity) : Construction :=
  { keys := ifDeclared caps .key caps.keys
    relativeAxes := ifDeclared caps .relative caps.relativeAxes
    absoluteAxes := ifDeclared caps .absolute caps.absoluteAxes
    identity, path := k.path, properties := caps.properties }

def create (caps : Capabilities) (identity : Identity) (k : Kernel) : Reply Kernel :=
  let notes := [.kernelCreating k.path caps.keys.length caps.relativeAxes.length
    caps.absoluteAxes.length]
  match k.misbehaviour with
  | .create =>
    { result := .error (.described ("\"" ++ k.path ++ "\" cannot be opened for writing"))
      sink := k, notes }
  | .refuse => { result := .error (.errno .invalidArgument none), sink := k, notes }
  | _ =>
    { result := .ok ()
      sink := { k with
        device := some { construction := k.construction caps identity, node := k.node }
        retired := k.device.toList ++ k.retired }
      notes }

/-- The call that delivers an event. -/
def callOf (e : Event) : Call := if e.isSync then .sync else .write e

def write (e : Event) (k : Kernel) : Reply Kernel :=
  match k.device with
  | none => { result := .error (.described "device is not created"), sink := k }
  | some d =>
    match k.misbehaviour with
    | .write => { result := .error (.errno .noDevice none), sink := k }
    | _ => { result := .ok (), sink := { k with device := some (d.call (callOf e)) } }

def destroy (k : Kernel) : Reply Kernel :=
  match k.device with
  | none => { result := .ok (), sink := k }
  | some d =>
    { result := match k.misbehaviour with
        | .close => .error (.errno .inputOutput none)
        | _ => .ok ()
      sink := { k with device := none, retired := d.call .close :: k.retired } }

/-- The last component of a path. -/
def baseName (path : String) : String :=
  String.ofList ((path.toList.reverse.takeWhile (· != '/')).reverse)

def sysname (k : Kernel) : Option String := (k.device.bind (·.node)).map baseName

instance : Sink Kernel := ⟨create, write, destroy, sysname⟩

end Kernel

end InputScript.Device
