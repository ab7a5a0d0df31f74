import InputScript.Device.KeyTable
import InputScript.Number.Literal
import InputScript.Report
import InputScript.Text.Case

/-!
# Keys and axes

The codes of the input subsystem: event types, the names of keys and axes, and how a script refers
to them. Names are matched without regard to case. A key may also be given by its number; a leading
zero before a digit means base eight.

Wheel axes have a companion of higher resolution that reports the same motion in finer units; the
companions have no names of their own in a script.
-/

namespace InputScript.Device

/-! ## Event types and bounds -/

/-- The classes of input events. -/
inductive EventType
  | sync
  | key
  | relative
  | absolute
deriving DecidableEq, Repr

namespace EventType

def code : EventType → Nat
  | .sync => 0
  | .key => 1
  | .relative => 2
  | .absolute => 3

/-- The short name used in the journal. -/
def shortName : EventType → String
  | .sync => "syn"
  | .key => "key"
  | .relative => "rel"
  | .absolute => "abs"

def all : List EventType := [.sync, .key, .relative, .absolute]

end EventType

/-- The greatest key code that a script may name. -/
def keyMax : Nat := 767

/-- The first and last code of the tool buttons that make a device look like a tablet. -/
def toolButtons : Nat × Nat := (320, 335)

/-- The greatest value of an absolute axis. -/
def axisRange : Nat := 1000000

/-! ## Axes -/

/-- Relative axes in order of declaration. -/
def relativeAxes : List (String × Nat) :=
  [("REL_X", 0), ("REL_Y", 1), ("REL_Z", 2), ("REL_RX", 3), ("REL_RY", 4), ("REL_RZ", 5),
   ("REL_DIAL", 7), ("REL_MISC", 9), ("REL_WHEEL", 8), ("REL_HWHEEL", 6)]

/-- Absolute axes in order of declaration. -/
def absoluteAxes : List (String × Nat) :=
  [("ABS_X", 0), ("ABS_Y", 1), ("ABS_Z", 2), ("ABS_RX", 3), ("ABS_RY", 4), ("ABS_RZ", 5),
   ("ABS_THROTTLE", 6), ("ABS_RUDDER", 7), ("ABS_WHEEL", 8), ("ABS_GAS", 9), ("ABS_BRAKE", 10),
   ("ABS_HAT0X", 16), ("ABS_HAT0Y", 17), ("ABS_HAT1X", 18), ("ABS_HAT1Y", 19),
   ("ABS_HAT2X", 20), ("ABS_HAT2Y", 21), ("ABS_HAT3X", 22), ("ABS_HAT3Y", 23),
   ("ABS_PRESSURE", 24), ("ABS_DISTANCE", 25), ("ABS_TILT_X", 26), ("ABS_TILT_Y", 27),
   ("ABS_TOOL_WIDTH", 28), ("ABS_VOLUME", 32), ("ABS_PROFILE", 33), ("ABS_MISC", 40)]

/-- The vertical wheel. -/
def wheelAxis : Nat := 8

/-- The horizontal wheel. -/
def horizontalWheelAxis : Nat := 6

/-- The companion of a wheel axis. -/
def fineAxis? (axis : Nat) : Option Nat :=
  if axis = wheelAxis then some 11 else if axis = horizontalWheelAxis then some 12 else none

/-- How many fine units make one wheel unit. -/
def fineUnits : Nat := 120

/-- The axes that `move` and `position` address in turn. -/
def mainAxes (alternate : Bool) : List Nat := if alternate then [3, 4, 5] else [0, 1, 2]

/-! ## Lookup -/

/-- A name that is neither a key nor an axis. -/
inductive LookupFault
  | key (verb : Option String) (name : String)
  | axis (verb : Option String) (name : String)
deriving DecidableEq, Repr

def LookupFault.report : LookupFault → Report
  | .key verb name =>
    ({ kind := .unknownKey
       message := verbLead verb ++ "unrecognized key '" ++ name ++ "'" } : Report).withDetails
      [("key", .text name)]
  | .axis verb name =>
    ({ kind := .unknownAxis
       message := verbLead verb ++ "unrecognized axis '" ++ name ++ "'" } : Report).withDetails
      [("axis", .text name)]

/-- A key code in numbers. -/
def readCode? (text : String) : Option Int :=
  match text.toList with
  | '0' :: d :: _ => if Text.isDigit d then Number.readOctal? text else Number.readInt? text
  | _ => Number.readInt? text

/-- Whether a key is given by number. -/
def startsWithDigit (name : String) : Bool :=
  match name.toList with
  | c :: _ => Text.isDigit c
  | [] => false

/-- The code of a key or button. -/
def findKey? (name : String) : Option Nat :=
  if startsWithDigit name then
    match readCode? name with
    | some n => if 0 ≤ n ∧ n ≤ keyMax then some n.toNat else none
    | none => none
  else keyTable.lookup (Text.upper name)

def findKey (name : String) (verb : Option String := none) : Except LookupFault Nat :=
  match findKey? name with
  | some code => .ok code
  | none => .error (.key verb name)

/-- An axis and whether it is absolute. -/
structure Axis where
  code : Nat
  absolute : Bool
deriving DecidableEq, Repr

/-- The axis of a name, among the absolute or relative ones as asked for. -/
def findAxis? (name : String) (relative absolute : Bool) : Option Axis :=
  let folded := Text.upper name
  match (if absolute then absoluteAxes.lookup folded else none) with
  | some code => some ⟨code, true⟩
  | none => (if relative then relativeAxes.lookup folded else none).map (⟨·, false⟩)

def findAxis (name : String) (verb : Option String := none) (relative : Bool := true)
    (absolute : Bool := true) : Except LookupFault Axis :=
  match findAxis? name relative absolute with
  | some axis => .ok axis
  | none => .error (.axis verb name)

/-- The named keys whose name starts with a text, sorted by name. -/
def keysNamed (start : String) : List (String × Nat) :=
  (keyTable.filter fun (name, _) => start.toList.isPrefixOf name.toList).mergeSort
    fun a b => a.1 ≤ b.1

end InputScript.Device
