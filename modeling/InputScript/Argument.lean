import InputScript.Number.Literal
import InputScript.Report

/-!
# Numeric arguments

Verbs take counters, durations, relative deltas and percentages. Each is a number literal within an
interval; a text outside its interval is an error that quotes the text as it was written.
-/

namespace InputScript.Argument

/-- The least value of a 32-bit integer. -/
def int32Min : Int := -2147483648

/-- The greatest value of a 32-bit integer. -/
def int32Max : Int := 2147483647

/-- Sleeps and delays are longer than this, in seconds. -/
def minDuration : Binary64 := .round (mkRat 1 1000)

/-- Sleeps and delays are at most a day, in seconds. -/
def maxDuration : Binary64 := 86400

/-- What is wrong with an argument. -/
inductive Cause
  /-- The text is no number. -/
  | unparsable
  /-- The quantity named is out of range. -/
  | outOfRange (what : String)
  /-- The value is out of the range of its axis. -/
  | outOfAxis
deriving DecidableEq, Repr

/-- An argument error: the verb, the cause and the text. -/
structure Fault where
  verb : Option String
  cause : Cause
  text : String
deriving DecidableEq, Repr

def Fault.message (f : Fault) : String :=
  verbLead f.verb ++
    match f.cause with
    | .unparsable => "error parsing value '" ++ f.text ++ "'"
    | .outOfRange what => what ++ " is out of range: " ++ f.text
    | .outOfAxis => "value is out of range in '" ++ f.text ++ "'"

def Fault.report (f : Fault) : Report :=
  ({ kind := .range, message := f.message } : Report).withDetails [("value", .text f.text)]

/-- A finite number. -/
def number (text : String) (verb : Option String := none) :
    Except (Trouble Fault) Binary64 :=
  match Number.readNumber text with
  | .number x => .ok x
  | .notANumber => .error (.fault ⟨verb, .unparsable, text⟩)
  | .tooLarge => .error (.crash .overflow)

/-- A 32-bit integer. -/
def integer (text : String) (verb : Option String := none) : Except Fault Int :=
  match Number.readInt? (Text.trim text) with
  | some n =>
    if int32Min ≤ n ∧ n ≤ int32Max then .ok n else .error ⟨verb, .unparsable, text⟩
  | none => .error ⟨verb, .unparsable, text⟩

/-- A counter or level: an integer of at least one. -/
def positive (text : String) (verb : Option String := none) (what : String := "value") :
    Except Fault Nat := do
  let n ← integer text verb
  if n ≤ 0 then .error ⟨verb, .outOfRange what, text⟩ else .ok n.toNat

/-- A sleep, delay or run time in seconds. -/
def duration (text : String) (verb : Option String := none) (what : String := "delay") :
    Except (Trouble Fault) Binary64 := do
  let x ← number text verb
  if x ≤ minDuration ∨ maxDuration < x then .error (.fault ⟨verb, .outOfRange what, text⟩)
  else .ok x

/-- Whether a number lies in the 32-bit range. -/
def fitsInt32 (x : Binary64) : Bool :=
  (Binary64.round int32Min).le x && x.le (Binary64.round int32Max)

/-- A delta on a relative axis. -/
def relative (text : String) (verb : Option String := none) :
    Except (Trouble Fault) Binary64 := do
  let x ← number text verb
  if fitsInt32 x then .ok x else .error (.fault ⟨verb, .outOfAxis, text⟩)

/-- Whether a number is a percentage. -/
def isPercent (x : Binary64) : Bool :=
  Binary64.le 0 x && x.le 100

/-- A position on an absolute axis, in percent of its range. -/
def absolute (text : String) (verb : Option String := none) :
    Except (Trouble Fault) Binary64 := do
  let x ← number text verb
  if isPercent x then .ok x else .error (.fault ⟨verb, .outOfAxis, text⟩)

end InputScript.Argument
