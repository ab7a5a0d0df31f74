import InputScript.Condition
import InputScript.Device.Code
import InputScript.Invocation

/-!
# The journal

Every noteworthy step is recorded as a note. Each kind of note has a level, an event name and named
fields; how notes are shown depends on the verbosity and the format that the user chose.
-/

namespace InputScript

/-- The levels of notes. -/
inductive Level
  | debug
  | info
  | warning
  | error
deriving DecidableEq, Repr

namespace Level

def name : Level → String
  | .debug => "debug"
  | .info => "info"
  | .warning => "warning"
  | .error => "error"

def number : Level → Nat
  | .debug => 10
  | .info => 20
  | .warning => 30
  | .error => 40

def all : List Level := [.debug, .info, .warning, .error]

/-- The least level shown at a verbosity. -/
def ofVerbosity (verbosity : Int) : Level :=
  if verbosity = 0 then .warning else if verbosity = 1 then .info else .debug

/-- The levels shown at a threshold. -/
def shownFrom (threshold : Level) : List Level :=
  all.filter fun level => threshold.number ≤ level.number

end Level

/-- The formats of the journal. -/
inductive JournalFormat
  | console
  | json
deriving DecidableEq, Repr

/-- The format of a name; only `json` itself chooses JSON. -/
def JournalFormat.ofName (name : String) : JournalFormat :=
  if name == "json" then .json else .console

/-- The name of the format to use: the one given, else the one of the environment, else `console`. -/
def JournalFormat.chosen (given environment : Option String) : JournalFormat :=
  ofName ((given <|> environment).getD "console")

/-- Three hexadecimal digits of a code, the sign counting as one. -/
def codeText (code : Int) : String :=
  match code with
  | .ofNat n => "0x" ++ Text.hexadecimal 3 n
  | .negSucc n => "0x-" ++ Text.hexadecimal 2 (n + 1)

/-- Something worth recording. -/
inductive Note
  | scriptStarted (source : String) (depth : Nat)
  | scriptExited (source : String)
  | scriptFinished (source : String)
  | commandDispatched (invocation : Invocation)
  | omitFinished (line : Nat) (word : String)
  | loopStarted (count : Option Nat) (runTime : Option Binary64) (lines : Nat) (line : Option Nat)
  | loopContinued (remaining : Option Nat) (iteration : Nat)
  | loopBreak (levels : Nat)
  | loopBroken (iterations : Nat) (line : Option Nat)
  | loopFinished (iterations : Nat) (line : Option Nat)
  | conditionStep (step : Condition.Reduction)
  | conditionEvaluated (result : Bool) (line : Option Nat)
  | lineExpanding (shell line : String)
  | sleeping (seconds : Binary64)
  | variableSet (name value : String)
  | variableUnset (name : String)
  | execStarting (command : String) (detach : Bool)
  | execStarted (command : String)
  | execFinished (command : String) (status : Int)
  | deviceSetupFailed (device error : String)
  | deviceOpened (device : String) (sysname : Option String) (traits : List String)
  | deviceSettling (seconds : Binary64)
  | deviceCloseFailed (error : String)
  | deviceClosed (sysname : Option String)
  | eventEmitted (type code value : Int)
  | kernelCreating (path : String) (keys relative absolute : Nat)
  | dryRunCreated (name : String)
  | dryRunEvent (type code value : Int)
  | keyTap (keys count : Nat) (delay : Binary64)
  | runFailed (report : Report)

namespace Note

def level : Note → Level
  | .commandDispatched .. | .omitFinished .. | .loopContinued .. | .loopBreak .. | .conditionStep ..
  | .lineExpanding .. | .variableSet .. | .variableUnset .. | .deviceSettling ..
  | .eventEmitted .. | .kernelCreating .. => .debug
  | .deviceCloseFailed .. => .warning
  | .deviceSetupFailed .. | .runFailed .. => .error
  | _ => .info

def event : Note → String
  | .scriptStarted .. => "script_started"
  | .scriptExited .. => "script_exited"
  | .scriptFinished .. => "script_finished"
  | .commandDispatched .. => "command_dispatched"
  | .omitFinished .. => "omit_finished"
  | .loopStarted .. => "loop_started"
  | .loopContinued .. => "loop_continued"
  | .loopBreak .. => "loop_break"
  | .loopBroken .. => "loop_broken"
  | .loopFinished .. => "loop_finished"
  | .conditionStep .. => "condition_step"
  | .conditionEvaluated .. => "condition_evaluated"
  | .lineExpanding .. => "line_expanding"
  | .sleeping .. => "sleeping"
  | .variableSet .. => "variable_set"
  | .variableUnset .. => "variable_unset"
  | .execStarting .. => "exec_starting"
  | .execStarted .. => "exec_started"
  | .execFinished .. => "exec_finished"
  | .deviceSetupFailed .. => "device_setup_failed"
  | .deviceOpened .. => "device_opened"
  | .deviceSettling .. => "device_settling"
  | .deviceCloseFailed .. => "device_close_failed"
  | .deviceClosed .. => "device_closed"
  | .eventEmitted .. => "event_emitted"
  | .kernelCreating .. => "uinput_creating"
  | .dryRunCreated .. => "dry_run_device_created"
  | .dryRunEvent .. => "dry_run_event"
  | .keyTap .. => "key_tap"
  | .runFailed .. => "run_failed"

/-- The short name of an event type, or its number. -/
def typeDatum (type : Int) : Datum :=
  match Device.EventType.all.find? fun t => (t.code : Int) == type with
  | some t => .text t.shortName
  | none => .int type

def fields : Note → Fields
  | .scriptStarted source depth => [("source", .text source), ("depth", .ofNat depth)]
  | .scriptExited source | .scriptFinished source => [("source", .text source)]
  | .commandDispatched i =>
    [("verb", .text i.name), ("args", .texts i.args), ("line", .optNat i.line)]
  | .omitFinished line word => [("line", .ofNat line), ("at", .text word)]
  | .loopStarted count runTime lines line =>
    [("count", .optNat count), ("run_time", .ofOption .float runTime), ("lines", .ofNat lines),
     ("line", .optNat line)]
  | .loopContinued remaining iteration =>
    [("remaining", .optNat remaining), ("iteration", .ofNat iteration)]
  | .loopBreak levels => [("levels", .ofNat levels)]
  | .loopBroken iterations line | .loopFinished iterations line =>
    [("iterations", .ofNat iterations), ("line", .optNat line)]
  | .conditionStep step =>
    [("op", .text step.op.token), ("args", .list (step.args.map .float)),
     ("result", .float step.result)]
  | .conditionEvaluated result line => [("result", .bool result), ("line", .optNat line)]
  | .lineExpanding shell line => [("shell", .text shell), ("line", .text line)]
  | .sleeping seconds | .deviceSettling seconds => [("seconds", .float seconds)]
  | .variableSet name value => [("name", .text name), ("value", .text value)]
  | .variableUnset name | .dryRunCreated name => [("name", .text name)]
  | .execStarting command detach => [("command", .text command), ("detach", .bool detach)]
  | .execStarted command => [("command", .text command)]
  | .execFinished command status => [("command", .text command), ("returncode", .int status)]
  | .deviceSetupFailed device error => [("device", .text device), ("error", .text error)]
  | .deviceOpened device sysname traits =>
    [("device", .text device), ("sysname", .optText sysname), ("quirks", .texts traits)]
  | .deviceCloseFailed error => [("error", .text error)]
  | .deviceClosed sysname => [("sysname", .optText sysname)]
  | .eventEmitted type code value =>
    [("type", .int type), ("code", .text (codeText code)), ("value", .int value)]
  | .kernelCreating path keys relative absolute =>
    [("devnode", .text path), ("keys", .ofNat keys), ("rel_axes", .ofNat relative),
     ("abs_axes", .ofNat absolute)]
  | .dryRunEvent type code value =>
    [("type", typeDatum type), ("code", .text (codeText code)), ("value", .int value)]
  | .keyTap keys count delay =>
    [("keys", .ofNat keys), ("count", .ofNat count), ("delay", .float delay)]
  | .runFailed report => ("error", .text report.toText) :: report.toFields

end Note

end InputScript
