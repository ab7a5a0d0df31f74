import InputScript.Argument
import InputScript.Condition
import InputScript.Device.Code
import InputScript.Host
import InputScript.Invocation
import InputScript.Script.Line
import InputScript.Word.First

/-!
# Faults

Everything that a script can do wrong, by cause, and the report of each cause. A failure is a fault
together with as much of its position as is known.
-/

namespace InputScript

/-- Why a line could not be expanded by the shell. -/
inductive ExpansionFault
  | unpassable (cause : Unpassable)
  | noShell (shell : String) (error : SystemError)
  /-- The shell failed and said why. -/
  | complained (complaint : String)
  /-- The shell failed without a word. -/
  | status (number : Int)
  | undecodable (fault : Text.Utf8Fault)
deriving DecidableEq, Repr

def ExpansionFault.message : ExpansionFault → String
  | .unpassable cause => "cannot parse line: " ++ cause.message
  | .noShell shell error => "cannot run shell " ++ shell ++ ": " ++ error.toText
  | .complained _ => "expansion failed"
  | .status n => "expansion failed: exit status " ++ Text.decimalInt n
  | .undecodable fault => "expansion produced invalid UTF-8: " ++ fault.reason

/-- What the shell said. -/
def ExpansionFault.quote? : ExpansionFault → Option String
  | .complained complaint => some complaint
  | _ => none

/-- The two kinds of block. -/
inductive BlockKind
  | loop
  | cond
deriving DecidableEq, Repr

def BlockKind.name : BlockKind → String
  | .loop => "loop"
  | .cond => "if"

/-- Errors of control flow, with the depth of blocks where it is reported. -/
inductive ControlFault
  | mismatched (verb : String) (depth : Option Nat)
  | tooManyLevels (verb : String) (limit depth : Nat)
  | tooManyScripts (verb : String) (limit depth : Nat)
  /-- The lines ended while the body of a loop was collected. -/
  | loopUnterminated (depth : Nat)
  /-- The script ended inside a block. -/
  | blockUnterminated (kind : BlockKind) (depth : Nat)
deriving DecidableEq, Repr

def ControlFault.message : ControlFault → String
  | .mismatched verb _ => verb ++ ": mismatched context"
  | .tooManyLevels verb limit _ => verb ++ ": too many levels (max " ++ Text.decimal limit ++ ")"
  | .tooManyScripts verb limit _ =>
    verb ++ ": too many nested scripts (max " ++ Text.decimal limit ++ ")"
  | .loopUnterminated _ => "loop was not terminated"
  | .blockUnterminated kind depth =>
    kind.name ++ " was not terminated, depth " ++ Text.decimal depth

def ControlFault.depth : ControlFault → Option Nat
  | .mismatched _ depth => depth
  | .tooManyLevels _ _ depth | .tooManyScripts _ _ depth | .loopUnterminated depth
  | .blockUnterminated _ depth => some depth

/-- Everything that can be wrong with a script. -/
inductive Fault
  | undecodable (fault : Text.Utf8Fault)
  | word (fault : Word.WordFault)
  | expansion (fault : ExpansionFault)
  | binding (fault : Invocation.Fault)
  | argument (fault : Argument.Fault)
  | lookup (fault : Device.LookupFault)
  | condition (fault : Condition.Fault)
  | control (fault : ControlFault)
  /-- A packet item without its value. -/
  | noSeparator (verb text : String)
  | timeTwice (verb time : String)
  | noLoopLimit (verb : String)
  | variableName (name : String)
  /-- A value that does not fit its axis. -/
  | axisRange (verb : Option String) (value : Binary64)
  | deviceSetup (path : String) (error : SystemError)
  | deviceWrite (error : SystemError)
  | unreadable (path : String) (error : Errno)
  | unstartable (command : String) (error : SystemError)
  | commandFailed (command : String) (status : Int)
deriving DecidableEq, Repr

/-- A report with the details of its kind. -/
def Report.of (kind : ErrorKind) (message : String) (details : Fields) : Report :=
  ({ kind, message } : Report).withDetails details

/-- The report of a fault, without its position. -/
def Fault.report : Fault → Report
  | .undecodable fault => { kind := .parse, message := "invalid UTF-8 input: " ++ fault.reason }
  | .word fault => { kind := .parse, message := fault.message }
  | .expansion fault => { kind := .parse, message := fault.message, quote? := fault.quote? }
  | .binding fault => fault.report
  | .argument fault => fault.report
  | .lookup fault => fault.report
  | .condition fault => fault.report
  | .control fault => .of .controlFlow fault.message [("depth", .optNat fault.depth)]
  | .noSeparator verb text =>
    .of .range (verb ++ ": missing separator in '" ++ text ++ "'") [("value", .text text)]
  | .timeTwice verb time => .of .range (verb ++ ": run time given twice") [("value", .text time)]
  | .noLoopLimit verb => .of .range (verb ++ ": either counter or time should be specified") []
  | .variableName name =>
    .of .range ("set: error for name '" ++ name ++ "': invalid variable name")
      [("value", .text name)]
  | .axisRange verb value =>
    .of .range (verbLead verb ++ "value is out of range: " ++ Number.Layout.brief.render value)
      [("value", .text (Number.Layout.reported.render value))]
  | .deviceSetup path error =>
    .of .deviceSetup ("UINPUT: device " ++ path ++ " setup error: " ++ error.toText)
      [("device", .text path)]
  | .deviceWrite error =>
    { kind := .deviceOutput, message := "UINPUT write error: " ++ error.toText }
  | .unreadable path error =>
    { kind := .script
      message := path ++ ": cannot open script file: " ++ error.text
      category := .lookup
      context := [("path", .text path)] }
  | .unstartable command error =>
    .of .process ("exec: cannot execute command '" ++ command ++ "': " ++ error.toText)
      [("command", .text command)]
  | .commandFailed command status =>
    .of .process
      ("exec: command '" ++ command ++ "' failed with status " ++ Text.decimalInt status)
      [("command", .text command), ("returncode", .int status)]

/-- A fault and where it happened, as far as that is known. -/
structure Failure where
  fault : Fault
  source : Option String := none
  line : Option Nat := none
deriving DecidableEq, Repr

namespace Failure

/-- Attaches a position, keeping what is already known. -/
def locate (f : Failure) (source : String) (line : Option Nat) : Failure :=
  { f with source := f.source <|> some source, line := f.line <|> line }

/-- The report of a failure, with its position. -/
def report (f : Failure) : Report :=
  let r := f.fault.report
  let context := match f.source with
    | some source => r.context.setDefault "source" (.text source)
    | none => r.context
  { r with
    context := match f.line with
      | some line => context.setDefault "line" (.ofNat line)
      | none => context }

/-- Whether the failure stops the whole run. -/
def fatal (f : Failure) : Bool := f.report.fatal

end Failure

end InputScript
