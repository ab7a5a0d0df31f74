import InputScript.Device.Code
import InputScript.Settings.Basic

/-!
# Events and capabilities

An event is a type, a code and a value. Before a device exists it declares what it may emit: event
types, keys, axes and their ranges. A frame is a run of events up to and including a sync.
-/

namespace InputScript.Device

/-- A single emitted event. -/
structure Event where
  type : Int
  code : Int
  value : Int
deriving DecidableEq, Repr

namespace Event

def sync : Event := ⟨EventType.sync.code, 0, 0⟩

def key (code : Int) (pressed : Bool) : Event :=
  ⟨EventType.key.code, code, if pressed then 1 else 0⟩

def relative (axis value : Int) : Event := ⟨EventType.relative.code, axis, value⟩

def absolute (axis value : Int) : Event := ⟨EventType.absolute.code, axis, value⟩

/-- Whether the event ends a frame. -/
def isSync (e : Event) : Bool := e.type == EventType.sync.code

end Event

/-- Splits events into frames, each ending with a sync but perhaps the last. -/
def framesFrom (current : List Event) : List Event → List (List Event)
  | [] => if current.isEmpty then [] else [current.reverse]
  | e :: rest =>
    if e.isSync then (e :: current).reverse :: framesFrom [] rest
    else framesFrom (e :: current) rest

def frames (events : List Event) : List (List Event) := framesFrom [] events

/-- The declared range of an absolute axis. -/
structure AxisRange where
  minimum : Int := 0
  maximum : Int := 0
  fuzz : Int := 0
  flat : Int := 0
  resolution : Int := 0
  value : Int := 0
deriving DecidableEq, Repr

/-- How the device presents itself. -/
structure Identity where
  name : String
  bus : Int
  vendor : Int
  product : Int
  version : Int
deriving DecidableEq, Repr

/-- What the device declares, in order of declaration. -/
structure Capabilities where
  eventTypes : List Int := []
  properties : List Int := []
  keys : List Int := []
  relativeAxes : List Int := []
  absoluteAxes : List (Int × AxisRange) := []
deriving DecidableEq, Repr

/-- The device is a pointer and a direct input device. -/
def declaredProperties : List Int := [0, 1]

/-- Every absolute axis runs from zero to the same maximum. -/
def commonRange : AxisRange := { maximum := axisRange }

/-- Whether a profile leaves a key undeclared. -/
def skipsKey (p : Profile) (key : Nat) : Bool :=
  p.hasTrait libinputTrait && toolButtons.1 ≤ key && key ≤ toolButtons.2

/-- The keys that a profile declares: all codes below the greatest, less the tool buttons if the
consumer would take the device for a tablet. -/
def declaredKeys (p : Profile) : List Nat :=
  (List.range keyMax).filter fun key => !skipsKey p key

/-- The relative axes that every device declares, the fine companions last. -/
def declaredRelativeAxes : List Nat :=
  relativeAxes.map (·.2) ++ [wheelAxis, horizontalWheelAxis].filterMap fineAxis?

/-- The absolute axes that every device declares. -/
def declaredAbsoluteAxes : List Nat := absoluteAxes.map (·.2)

/-- The capabilities of a device with a profile. -/
def Capabilities.ofProfile (p : Profile) : Capabilities :=
  { eventTypes := [EventType.key.code, EventType.relative.code, EventType.absolute.code]
    properties := declaredProperties
    keys := (declaredKeys p).map Int.ofNat
    relativeAxes := declaredRelativeAxes.map Int.ofNat
    absoluteAxes := declaredAbsoluteAxes.map fun axis => (Int.ofNat axis, commonRange) }

/-- The identity of a device with a profile. -/
def Identity.ofProfile (p : Profile) : Identity :=
  ⟨p.name, p.bus, p.vendor, p.product, p.version⟩

end InputScript.Device
