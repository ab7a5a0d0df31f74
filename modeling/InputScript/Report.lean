import InputScript.Number.Decimal

/-!
# Reports

Whatever goes wrong in a script is reported in one form: the kind of error, a message, how severe
it is, what area it belongs to, and named details. The position of the error in a script is two of
the details, `source` and `line`, filled in by `locate` where they are still missing, so that the
innermost position wins.

The typed causes of the other modules are turned into reports; a report can also be assembled from
a kind and details given by name.
-/

namespace InputScript

/-- A value attached to a report or to a journal note. -/
inductive Datum
  | null
  | bool (b : Bool)
  | int (n : Int)
  | float (x : Binary64)
  | text (s : String)
  | list (items : List Datum)
  | record (fields : List (String × Datum))
deriving Inhabited

namespace Datum

def ofNat (n : Nat) : Datum := .int n

/-- An optional value, `null` standing for none. -/
def ofOption {α : Type} (f : α → Datum) : Option α → Datum
  | none => .null
  | some a => f a

def optText : Option String → Datum := ofOption .text

def optNat : Option Nat → Datum := ofOption ofNat

def texts (ss : List String) : Datum := .list (ss.map .text)

/-- The text of a plain value inside a message. -/
def toText : Datum → String
  | .null => "None"
  | .bool b => if b then "True" else "False"
  | .int n => Text.decimalInt n
  | .float x => Number.Layout.reported.render x
  | .text s => s
  | .list _ => "[]"
  | .record _ => "\x7b\x7d"

end Datum

/-- Named values in order of insertion. -/
abbrev Fields := List (String × Datum)

namespace Fields

/-- Sets a field, in place if it is present. -/
def set (fields : Fields) (name : String) (value : Datum) : Fields :=
  if (fields.lookup name).isSome then
    fields.map fun (n, v) => if n == name then (n, value) else (n, v)
  else fields ++ [(name, value)]

/-- Sets a field that is missing. -/
def setDefault (fields : Fields) (name : String) (value : Datum) : Fields :=
  if (fields.lookup name).isSome then fields else fields ++ [(name, value)]

end Fields

/-- How much of the work an error stops. -/
inductive Severity
  /-- The current script is aborted. -/
  | medium
  /-- Nothing was run. -/
  | high
  /-- The device failed, the whole run is over. -/
  | critical
deriving DecidableEq, Repr

def Severity.name : Severity → String
  | .medium => "medium"
  | .high => "high"
  | .critical => "critical"

def Severity.all : List Severity := [.medium, .high, .critical]

def Severity.ofName? (s : String) : Option Severity := all.find? (·.name == s)

/-- The area an error belongs to. -/
inductive Category
  | wording
  | lookup
  | validation
  | controlFlow
  | device
  | process
  | config
deriving DecidableEq, Repr

def Category.name : Category → String
  | .wording => "syntax"
  | .lookup => "lookup"
  | .validation => "validation"
  | .controlFlow => "control_flow"
  | .device => "device"
  | .process => "process"
  | .config => "config"

def Category.all : List Category :=
  [.wording, .lookup, .validation, .controlFlow, .device, .process, .config]

def Category.ofName? (s : String) : Option Category := all.find? (·.name == s)

/-- The kinds of error. -/
inductive ErrorKind
  | script
  | parse
  | unknownCommand
  | unknownOption
  | arity
  | unknownKey
  | unknownAxis
  | invalidExpression
  | range
  | deviceSetup
  | deviceOutput
  | controlFlow
  | process
  | config
deriving DecidableEq, Repr

namespace ErrorKind

def all : List ErrorKind :=
  [.script, .parse, .unknownCommand, .unknownOption, .arity, .unknownKey, .unknownAxis,
   .invalidExpression, .range, .deviceSetup, .deviceOutput, .controlFlow, .process, .config]

/-- The name under which a kind is reported. -/
def name : ErrorKind → String
  | .script => "ScriptError"
  | .parse => "ParseError"
  | .unknownCommand => "UnknownCommandError"
  | .unknownOption => "UnknownOptionError"
  | .arity => "ArityError"
  | .unknownKey => "UnknownKeyError"
  | .unknownAxis => "UnknownAxisError"
  | .invalidExpression => "InvalidExpressionError"
  | .range => "RangeError"
  | .deviceSetup => "DeviceSetupError"
  | .deviceOutput => "DeviceIOError"
  | .controlFlow => "ControlFlowError"
  | .process => "ProcessError"
  | .config => "ConfigError"

def ofName? (s : String) : Option ErrorKind := all.find? (·.name == s)

def severity : ErrorKind → Severity
  | .deviceSetup | .deviceOutput => .critical
  | .config => .high
  | _ => .medium

def category : ErrorKind → Category
  | .parse | .invalidExpression => .wording
  | .unknownCommand | .unknownOption | .unknownKey | .unknownAxis => .lookup
  | .script | .arity | .range => .validation
  | .deviceSetup | .deviceOutput => .device
  | .controlFlow => .controlFlow
  | .process => .process
  | .config => .config

/-- A detail that a kind takes: the name it is given by, the name it is reported under, and whether
it is reported when it is missing. -/
structure Detail where
  given : String
  reported : String
  always : Bool

/-- The details of a kind. -/
def details : ErrorKind → List Detail
  | .parse => [⟨"lineno", "line", false⟩]
  | .unknownCommand => [⟨"verb", "verb", true⟩]
  | .unknownOption => [⟨"option", "option", true⟩]
  | .unknownKey => [⟨"key", "key", true⟩]
  | .unknownAxis => [⟨"axis", "axis", true⟩]
  | .range => [⟨"value", "value", true⟩]
  | .deviceSetup => [⟨"device", "device", true⟩]
  | .controlFlow => [⟨"depth", "depth", false⟩]
  | .process => [⟨"command", "command", true⟩, ⟨"returncode", "returncode", true⟩]
  | .config => [⟨"config_path", "config_path", true⟩]
  | _ => []

end ErrorKind

/-- An error ready to be shown or logged. -/
structure Report where
  kind : ErrorKind
  message : String
  severity : Severity := kind.severity
  category : Category := kind.category
  context : Fields := []
  /-- What another program said of the error, which is no part of the message. -/
  quote? : Option String := none

namespace Report

/-- Puts the details of the report's kind into its context, missing ones as `null`. -/
def withDetails (r : Report) (given : Fields) : Report :=
  { r with
    context := r.kind.details.foldl (fun context detail =>
      match (given.lookup detail.given).getD .null, detail.always with
      | .null, false => context
      | value, _ => context.set detail.reported value) r.context }

/-- Assembles a report from details given by name; `none` if the kind does not take one of them. -/
def assemble? (kind : ErrorKind) (message : String) (severity : Option Severity)
    (category : Option Category) (context given : Fields) : Option Report :=
  if given.all fun (name, _) => kind.details.any (·.given == name) then
    some (withDetails ⟨kind, message, severity.getD kind.severity, category.getD kind.category,
      context, none⟩ given)
  else none

/-- Whether the error stops the whole run. -/
def fatal (r : Report) : Bool := r.severity = .critical

/-- Attaches a position, keeping what is already known. -/
def locate (r : Report) (source : String) (line : Option Nat) : Report :=
  let context := r.context.setDefault "source" (.text source)
  { r with
    context := match line with
      | none => context
      | some n => context.setDefault "line" (.ofNat n) }

/-- The message, after its position if that is known. -/
def toText (r : Report) : String :=
  match (r.context.lookup "source").getD .null, (r.context.lookup "line").getD .null with
  | .null, _ => r.message
  | _, .null => r.message
  | source, line => source.toText ++ ":" ++ line.toText ++ ": " ++ r.message

/-- The text shown to the user, which ends with what another program said. -/
def fullText (r : Report) : String :=
  match r.quote? with
  | none => r.toText
  | some quote => r.toText ++ ": " ++ quote

/-- The report as named values. -/
def toFields (r : Report) : Fields :=
  [("type", .text r.kind.name), ("message", .text r.message), ("severity", .text r.severity.name),
   ("category", .text r.category.name), ("context", .record r.context)]

end Report

/-- The name of a verb before a message, or nothing. -/
def verbLead : Option String → String
  | none => ""
  | some verb => if verb.isEmpty then "" else verb ++ ": "

/-- Failures that are not errors of the script. They end a run without a report. -/
inductive Crash
  /-- An integer beyond the range of binary64, or an infinity where an integer is needed. -/
  | overflow
  /-- A value that is not a number where an integer is needed. -/
  | notAnInteger
  | divisionByZero
  /-- An empty word list where a command is needed. -/
  | noWords
  /-- A line with a word but no piece between blanks. -/
  | noPiece
  /-- A zero character in an argument, a path or a variable of a child process. -/
  | embeddedNul
  /-- A variable whose name cannot be passed to a child process. -/
  | badVariable
  | unknownItem
  /-- A `break` that no loop of any running script takes. -/
  | strayBreak
  /-- A wait that never ends, or a run beyond its step bound. -/
  | endless
deriving DecidableEq, Repr

/-- What can go wrong in an operation whose own errors are of type `ε`. -/
inductive Trouble (ε : Type)
  | fault (cause : ε)
  | crash (crash : Crash)
deriving DecidableEq, Repr

/-- Embeds the errors of an operation into those of a larger one. -/
def Trouble.map {ε ε' : Type} (f : ε → ε') : Trouble ε → Trouble ε'
  | .fault e => .fault (f e)
  | .crash c => .crash c

end InputScript
