import InputScript.Device.Action
import InputScript.Settings.Basic

/-!
# Simple commands

The verbs that neither change the control flow nor start another script. Device verbs read all their
arguments before they touch the device.
-/

namespace InputScript.Machine

open Device (Item Sink)

variable {σ ω : Type} [Host σ]

/-! ## Arguments -/

/-- Applies a reader to each argument in turn. -/
def readAll {ε α : Type} (read : String → Except ε α) : List String → Except ε (List α)
  | [] => .ok []
  | arg :: args =>
    match read arg with
    | .error e => .error e
    | .ok a =>
      match readAll read args with
      | .error e => .error e
      | .ok as => .ok (a :: as)

/-- Applies a reader to an optional text. -/
def readOptional {ε α : Type} (read : String → Except ε α) : Option String → Except ε (Option α)
  | none => .ok none
  | some text =>
    match read text with
    | .error e => .error e
    | .ok a => .ok (some a)

/-- The codes of keys. -/
def keyCodes (verb : String) (args : List String) : Except Fault (List Int) :=
  match readAll (fun arg => Device.findKey arg (some verb)) args with
  | .error e => .error (.lookup e)
  | .ok codes => .ok (codes.map Int.ofNat)

/-- Takes a fault of an argument, or a crash, as trouble of a command. -/
def argumentTrouble : Trouble Argument.Fault → Trouble Fault := Trouble.map .argument

/-- Splits a text at its first equals sign. -/
def splitAssignment (text : String) : String × Option String :=
  let cs := text.toList
  match cs.dropWhile (· != '=') with
  | [] => (text, none)
  | _ :: value => (String.ofList (cs.takeWhile (· != '=')), some (String.ofList value))

/-- Reads one item of a packet: a sync, a key or an axis with its value. -/
def readItem (verb text : String) : Except (Trouble Fault) Item :=
  let (name, value?) := splitAssignment text
  let folded := Text.upper name
  if folded == "SYNC" then .ok .sync
  else
    match value? with
    | none => .error (.fault (.noSeparator verb text))
    | some value =>
      if folded == "KEYDOWN" || folded == "KEYUP" then
        match Device.findKey value (some verb) with
        | .error e => .error (.fault (.lookup e))
        | .ok code => .ok (if folded == "KEYDOWN" then .keyDown code else .keyUp code)
      else
        match Device.findAxis name (some verb) with
        | .error e => .error (.fault (.lookup e))
        | .ok axis =>
          if axis.absolute then
            match Argument.absolute value (some verb) with
            | .error e => .error (argumentTrouble e)
            | .ok percent => .ok (.absolute axis.code percent)
          else
            match Argument.relative value (some verb) with
            | .error e => .error (argumentTrouble e)
            | .ok delta => .ok (.relative axis.code delta)

/-! ## Commands without a device -/

/-- Prints words separated by spaces. -/
def echo (args : List String) : Act σ ω Unit :=
  modify fun s => { s with echoed := (" ".intercalate args ++ "\n") :: s.echoed }

/-- Whether a text may name a variable. -/
def isVariableName (name : String) : Bool :=
  !name.isEmpty && !name.toList.contains '=' && !hasNul name

/-- Sets a variable, or removes it if no value is given. -/
def assign (name : String) (value : Option String) : Act σ ω Unit := do
  if isVariableName name then
    match value with
    | none =>
      modify fun s => { s with environment := s.environment.erase name }
      Act.note (.variableUnset name)
    | some value =>
      if Host.systemVariables σ && hasNul value then Act.crash .embeddedNul
      else
        modify fun s => { s with environment := s.environment.set name value }
        Act.note (.variableSet name value)
  else Act.fail (.variableName name)

/-- Sleeps for a time. -/
def sleep (seconds : Binary64) : Act σ ω Unit := do
  Act.note (.sleeping seconds)
  Act.wait seconds

/-- The crash of a child process that cannot be given its words or variables. -/
def crashOf : Unpassable → Crash
  | .badVariable => .badVariable
  | .embeddedNul => .embeddedNul

/-- Runs a child process. One that is detached is not waited for. -/
def execute (command : String) (args : List String) (detach : Bool) : Act σ ω Unit := do
  Act.note (.execStarting command detach)
  let s ← get
  match passable (command :: args) s.environment with
  | .error cause => Act.crash (crashOf cause)
  | .ok () =>
    match ← Act.spawn (command :: args) with
    | .error e => Act.fail (.unstartable command e)
    | .ok finished =>
      Act.note (.execStarted command)
      if detach then return
      Act.note (.execFinished command finished.status)
      if finished.status != 0 then Act.fail (.commandFailed command finished.status)

/-! ## Commands on the device -/

variable [Sink ω]

/-- The device controls of the settings. -/
def controls (settings : Settings) : Device.Controls :=
  { profile := settings.device, keyDelay := settings.keyDelay }

/-- Taps keys as the options say. -/
def tapKeys (settings : Settings) (inv : Invocation) : Act σ ω Unit := do
  let verb := some inv.name
  let count ← Act.ofExcept .argument
    (readOptional (Argument.positive · verb "repeat value") (inv.option .count))
  let time ← Act.lift .argument
    (readOptional (Argument.duration · verb "run time value") (inv.option .time))
  let delay ← Act.lift .argument
    (readOptional (Argument.duration · verb "delay value") (inv.option .delay))
  let codes ← Act.ofExcept id (keyCodes inv.name inv.args)
  let _ ← Device.tap (controls settings) codes (count.map Int.ofNat) time delay

/-- Executes a command that is neither control flow nor a call of a script. -/
def simple (settings : Settings) (inv : Invocation) : Act σ ω Unit := do
  let p := settings.device
  let verb := some inv.name
  match inv.verb, inv.args with
  | .openDevice, _ => Device.openDevice p
  | .packet, args =>
    let items ← Act.lift id (readAll (readItem inv.name) args)
    Device.packet p items inv.name
  | .keyDown, args =>
    let codes ← Act.ofExcept id (keyCodes inv.name args)
    Device.keys p true codes
  | .keyUp, args =>
    let codes ← Act.ofExcept id (keyCodes inv.name args)
    Device.keys p false codes
  | .key, _ => tapKeys settings inv
  | .move, args =>
    let deltas ← Act.lift .argument (readAll (Argument.relative · verb) args)
    Device.move p deltas (inv.flag .alternate) inv.name
  | .wheel, arg :: _ =>
    let delta ← Act.lift .argument (Argument.relative arg verb)
    Device.wheel p delta (inv.flag .horizontal) inv.name
  | .position, args =>
    let percents ← Act.lift .argument (readAll (Argument.absolute · verb) args)
    Device.position p percents (inv.flag .alternate) inv.name
  | .sleep, arg :: _ =>
    let seconds ← Act.lift .argument (Argument.duration arg verb)
    sleep seconds
  | .exec, command :: args => execute command args (inv.flag .detach)
  | .echo, args => echo args
  | .assign, name :: rest => assign name rest.head?
  | _, _ => return

end InputScript.Machine
