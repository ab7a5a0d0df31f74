import InputScript.Expansion
import InputScript.Machine.Activation
import InputScript.Machine.Command

/-!
# Running scripts

The machine runs a stack of activations, the innermost script first, one line at a time. `step` takes
the next line of the innermost script and executes or skips it, ends an iteration when a loop body is
used up, or ends the script when its lines are. `run` repeats it.

What a line does to its own script is a `Move`; it is made without looking at the scripts that called
it, except that the loop they are in is inherited. `follow` carries a move out on the whole stack, and
`turn` is both together. The stack as a whole may stand inside of a loop too; a run starts outside of
any.

The innermost loop is published in two variables of the environment whenever it may have changed: at
the start of an iteration, when a loop is left, and when a script is abandoned.
-/

namespace InputScript.Machine

open Device (Sink)
open Script (Line RawLine Next)

variable {σ ω : Type} [Host σ]

/-! ## Loop variables -/

/-- Holds the number of iterations left in the innermost loop. -/
def loopCountName : String := "UDOSCRIPT_LOOP_COUNT"

/-- Holds the seconds left in the innermost loop. -/
def loopTimeName : String := "UDOSCRIPT_LOOP_RTIME"

/-- What stands for no limit. -/
def unbounded : String := "*"

/-- The text of a number of iterations. -/
def countText : Option Nat → String
  | none => unbounded
  | some n => Text.decimal n

/-- The time left until a deadline, never negative. -/
def timeLeft (deadline now : Binary64) : Binary64 :=
  let left := deadline - now
  if left < 0 then 0 else left

/-- The text of the time left until a deadline. -/
def timeText : Option Binary64 → Act σ ω String
  | none => pure unbounded
  | some deadline => do
    let now ← Act.readClock
    pure (Number.fixed 3 (timeLeft deadline now))

/-- Publishes the innermost loop. -/
def publish : Option Countdown → Act σ ω Unit
  | none =>
    modify fun s =>
      { s with environment := (s.environment.erase loopCountName).erase loopTimeName }
  | some countdown => do
    let time ← timeText countdown.deadline
    modify fun s =>
      { s with
        environment :=
          (s.environment.set loopCountName (countText countdown.remaining)).set loopTimeName time }

/-! ## Outcomes -/

/-- How a run ends. -/
inductive Outcome
  | success
  | failure (failure : Failure)
  | crash (crash : Crash)
deriving DecidableEq, Repr

/-- Where the machine stands after a step. -/
inductive Status
  | running (activations : List Activation)
  | done (outcome : Outcome)
deriving DecidableEq, Repr

/-- What a line makes of the script that it belongs to. -/
inductive Move
  /-- The script goes on. -/
  | next (a : Activation)
  /-- Another script is run before this one goes on. -/
  | call (callee a : Activation)
  /-- The script is over. -/
  | leave
  /-- More loops are left than the script has; those of its caller are next. -/
  | unwind (levels : Nat)
deriving DecidableEq, Repr

/-- Attaches a position to the failure of an action. -/
def located {α : Type} (source : String) (line : Option Nat) (act : Act σ ω α) : Act σ ω α :=
  tryCatch act fun
    | .fault f => throw (.fault (f.locate source line))
    | .crash c => throw (.crash c)

/-- Abandons the running scripts one after the other because of a failure. The innermost is already
positioned; the others add the position of the line that called. -/
def abandon (inherited : Option Countdown) (f : Failure) : List Activation → Act σ ω Failure
  | [] => return f
  | a :: callers => do
    publish (countdown? inherited callers)
    match callers with
    | [] => return f
    | caller :: _ => abandon inherited (f.locate caller.source a.calledFrom) callers

/-! ## Loops -/

/-- Leaves loops because of a `break`: cuts the stack below each loop left and goes on after the
last of them. The answer comes with the number of loops still to leave. -/
def leaveLoops (inherited : Option Countdown) (a : Activation) :
    Nat → List Replay → Act σ ω (Nat × Activation)
  | 0, replays => return (0, { a with replays })
  | levels, [] => return (levels, { a with replays := [] })
  | levels + 1, replay :: replays => do
    let (spent, a) := a.breakLoop replay.base
    publish (a.countdown? inherited)
    Act.note (.loopBroken (replay.iterations + 1) (spent.bind (·.line)))
    leaveLoops inherited a levels replays

/-- Whether the time of a loop is used up. -/
def timeIsUp : Option Binary64 → Act σ ω Bool
  | none => pure false
  | some deadline => do
    let now ← Act.readClock
    pure (deadline.le now)

/-- Ends an iteration of the innermost loop: starts the next one, or leaves the loop when its count
or its time is used up. -/
def endIteration (inherited : Option Countdown) (a : Activation) (replay : Replay)
    (outer : List Replay) : Act σ ω Move := do
  match a.loopAt? replay.base with
  | none => return .next { a with replays := outer }
  | some frame =>
    let iterations := replay.iterations + 1
    let frame := { frame with remaining := frame.remaining.map (· - 1) }
    let timeDone ← timeIsUp frame.deadline
    if frame.remaining = some 0 ∨ timeDone = true then
      let (spent, a) := a.endLoop replay.base frame
      let a := { a with replays := outer }
      publish (a.countdown? inherited)
      Act.note (.loopFinished iterations spent.line)
      return .next a
    else
      Act.note (.loopContinued frame.remaining iterations)
      let a := a.setLoopAt replay.base { frame with body := frame.body.rewind }
      let a := { a with replays := { replay with iterations } :: outer }
      publish (a.countdown? inherited)
      return .next a

/-- The run time that a `loop` line gives, as an option or as its second argument. -/
def loopTime (inv : Invocation) : Act σ ω (Option String) :=
  match inv.option .time, inv.args[1]? with
  | some time, some _ => Act.fail (.timeTwice inv.name time)
  | some time, none => pure (some time)
  | none, second => pure second

/-- The count and run time that a `loop` line asks for. -/
def loopLimits (inv : Invocation) : Act σ ω (Option Nat × Option Binary64) := do
  let verb := some inv.name
  let count ← Act.ofExcept .argument
    (readOptional (Argument.positive · verb "loop counter") inv.args.head?)
  let text ← loopTime inv
  let time ← Act.lift .argument (readOptional (Argument.duration · verb "run time") text)
  match count, time with
  | none, none => Act.fail (.noLoopLimit inv.name)
  | _, _ => return (count, time)

/-- Checks that one more block may be entered. -/
def checkDepth (settings : Settings) (depth : Nat) (verb : String) : Act σ ω Unit :=
  if settings.maxControlDepth ≤ depth then
    Act.fail (.control (.tooManyLevels verb settings.maxControlDepth depth))
  else return

/-- Leaves on standard input what a collection that failed did not read. -/
def drainInput (a : Activation) (upTo : Option Nat) : Act σ ω Unit :=
  modify fun s => { s with input := a.drain s.input upTo }

/-- Collects the body of the loop just entered; the answer is the body and the activation that has
read it. -/
def collect (a : Activation) : Act σ ω (List Line × Activation) := do
  let s ← get
  let (lines, fault) := a.upcoming s.input
  match takeBody 0 lines with
  | .ok body =>
    let (a, input) := a.skipPast s.input body.closer body.rest
    set { s with input }
    return (body.lines, a)
  | .error (.obscure line trouble) =>
    drainInput a (some line.number)
    located a.source (some line.number) (Act.lift .word (.error trouble))
  | .error .unfinished =>
    match fault with
    | some fault =>
      drainInput a (some fault.number)
      throw (.fault { fault := .undecodable fault.fault, line := some fault.number })
    | none =>
      drainInput a none
      Act.fail (.control (.loopUnterminated a.height))

/-- Starts a loop. -/
def startLoop (settings : Settings) (inherited : Option Countdown) (a : Activation)
    (inv : Invocation) : Act σ ω Move := do
  let (count, time) ← loopLimits inv
  let now ← Act.readClock
  let frame : LoopFrame :=
    { remaining := count, deadline := time.map (now + ·), line := inv.line }
  checkDepth settings a.height inv.name
  let (lines, a) ← collect (a.push (.loop frame))
  Act.note (.loopStarted count time lines.length inv.line)
  let a := a.setLoopAt a.height { frame with body := { lines } }
  let a := { a with replays := { base := a.height } :: a.replays }
  publish (a.countdown? inherited)
  return .next a

/-- The number of loops that a `break` leaves. -/
def breakLevels (inv : Invocation) : Act σ ω Nat := do
  match inv.args with
  | [] => return 1
  | arg :: _ => Act.ofExcept .argument (Argument.positive arg (some inv.name) "loop depth")

/-- Leaves loops of the script. -/
def startBreak (inherited : Option Countdown) (a : Activation) (inv : Invocation) :
    Act σ ω Move := do
  let levels ← breakLevels inv
  let available := a.loops.length
  if available < levels then
    Act.fail (.control (.mismatched inv.name (some available)))
  else
    Act.note (.loopBreak levels)
    let (left, a) ← leaveLoops inherited a levels a.replays
    return if left = 0 then .next a else .unwind left

/-! ## Branches -/

/-- The truth of the condition of an `if` line. -/
def judge (settings : Settings) (inv : Invocation) : Act σ ω Bool := do
  let (result, steps) := Condition.evaluate inv.args settings.maxExpressionDepth
  Act.noteAll (steps.map .conditionStep)
  let truth ← Act.lift
    (fun complaint => .condition ⟨inv.name, complaint, inv.args⟩) result
  Act.note (.conditionEvaluated truth inv.line)
  return truth

/-- Starts an `if`. -/
def startCond (settings : Settings) (a : Activation) (inv : Invocation) : Act σ ω Move := do
  let truth ← judge settings inv
  checkDepth settings a.height inv.name
  let a := a.push (.cond { line := inv.line })
  return .next (if truth then a else a.startOmission false)

/-- Reaches an `else` after the branch that was taken: skips the other one. -/
def startElse (a : Activation) (inv : Invocation) : Act σ ω Move :=
  match a.frames with
  | .cond { elseSeen := false, .. } :: _ => return .next (a.markElse.startOmission true)
  | _ => Act.fail (.control (.mismatched inv.name (some a.height)))

/-- Reaches the `end` of a branch. -/
def endCond (a : Activation) (inv : Invocation) : Act σ ω Move :=
  match a.frames with
  | .cond _ :: _ => return .next a.pop
  | _ => Act.fail (.control (.mismatched inv.name (some a.height)))

/-- The word that ends a block or its first branch. -/
def isWord (verb : Verb) (word : Option String) : Bool := word == some verb.name

/-- Skips one line. -/
def omitLine (a : Activation) (o : Omission) (line : Line) : Act σ ω Move := do
  let word ← Act.lift .word (Word.firstWord line.text)
  match Mark.ofWord word, o.nesting with
  | .opener, n => return .next { a with omission := some { o with nesting := n + 1 } }
  | .closer, n + 1 => return .next { a with omission := some { o with nesting := n } }
  | .closer, 0 =>
    Act.note (.omitFinished line.number Verb.close.name)
    return .next { a.pop with omission := none }
  | .neutral, 0 =>
    if isWord .otherwise word then
      if o.elseSeen then Act.fail (.control (.mismatched Verb.otherwise.name none))
      else
        let a := if a.height = o.height then a.markElse else a
        Act.note (.omitFinished line.number Verb.otherwise.name)
        return .next { a with omission := none }
    else return .next a
  | .neutral, _ => return .next a

/-! ## Scripts -/

/-- Checks at the end of a script or command that every block was left. -/
def finish (a : Activation) : Act σ ω Move := do
  match a.frames with
  | frame :: _ =>
    throw (.fault (({ fault := .control (.blockUnterminated frame.kind a.height) } : Failure).locate
      a.source frame.line))
  | [] =>
    match a.role with
    | .script =>
      Act.note (.scriptFinished a.source)
      return .leave
    | .command => return .leave

/-- What is noted about an `exit`. -/
def exitNotes (a : Activation) : List Note :=
  match a.role with
  | .script => [.scriptExited a.source]
  | .command => []

/-- Ends the innermost script because of an `exit`. -/
def exitScript (inherited : Option Countdown) (a : Activation) : Act σ ω Move := do
  Act.noteAll (exitNotes a)
  publish inherited
  finish a.reset

/-- The lines of a script file; a dash is the standard input. -/
def openFeed (path : String) : Act σ ω Feed := do
  if path == "-" then return { pending := none }
  else if hasNul path then Act.crash .embeddedNul
  else
    match Host.readFile path (← get).host with
    | .error e => Act.fail (.unreadable path e)
    | .ok bytes => return { pending := some (RawLine.ofBytes bytes) }

/-- A script that is about to run. -/
def beginScript (source : String) (depth : Nat) (feed : Feed) (calledFrom : Option Nat) :
    Act σ ω Activation := do
  Act.note (.scriptStarted source depth)
  return { role := .script, source, depth, feed, calledFrom }

/-- Opens a script that is called at a depth of scripts. -/
def callScript (settings : Settings) (depth : Nat) (inv : Invocation) (path : String) :
    Act σ ω Activation := do
  if settings.maxScriptDepth < depth + 1 then
    Act.fail (.control (.tooManyScripts inv.name settings.maxScriptDepth depth))
  else
    let feed ← openFeed path
    beginScript path (depth + 1) feed inv.line

/-! ## Steps -/

variable [Sink ω]

/-- Executes a command that is no control flow. The answer is the script that it calls, if any. -/
def executePlain (settings : Settings) (depth : Nat) (inv : Invocation) :
    Act σ ω (Option Activation) :=
  match inv.verb, inv.args with
  | .script, path :: _ => do
    let callee ← callScript settings depth inv path
    return some callee
  | _, _ => do
    simple settings inv
    return none

/-- What a command that is no control flow makes of its script. -/
def plainMove (a : Activation) : Option Activation → Move
  | none => .next a
  | some callee => .call callee a

/-- Executes a command. -/
def perform (settings : Settings) (inherited : Option Countdown) (a : Activation)
    (inv : Invocation) : Act σ ω Move :=
  match inv.verb with
  | .loop => startLoop settings inherited a inv
  | .leave => startBreak inherited a inv
  | .cond => startCond settings a inv
  | .otherwise => startElse a inv
  | .close => endCond a inv
  | .exit => exitScript inherited a
  | _ => do
    let callee ← executePlain settings a.depth inv
    return plainMove a callee

/-- The command that words ask for. -/
def commandOf (words : List String) (line : Option Nat) : Act σ ω Invocation := do
  let inv ← Act.lift .binding (Invocation.bind words line)
  Act.note (.commandDispatched inv)
  return inv

/-- Executes the words of a line. -/
def dispatch (settings : Settings) (inherited : Option Countdown) (a : Activation)
    (words : List String) (line : Option Nat) : Act σ ω Move := do
  let inv ← commandOf words line
  perform settings inherited a inv

/-- Executes one line. -/
def executeLine (settings : Settings) (inherited : Option Countdown) (a : Activation)
    (line : Line) : Act σ ω Move := do
  let words ← Expansion.split settings.shell line.text (some line.number)
  if words.isEmpty then return .next a
  else dispatch settings inherited a words (some line.number)

/-- Takes the next line of a script. -/
def advance (settings : Settings) (inherited : Option Countdown) (a : Activation) :
    Act σ ω Move := do
  let s ← get
  let (next, a, input) := a.fetch s.input
  set { s with input }
  match next with
  | .line line =>
    located a.source (some line.number) <|
      match a.omission with
      | some o => omitLine a o line
      | none => executeLine settings inherited a line
  | .fault fault =>
    throw (.fault { fault := .undecodable fault.fault, line := some fault.number })
  | .finished =>
    match a.replays with
    | replay :: outer => endIteration inherited a replay outer
    | [] => finish a

/-- Leaves loops of the innermost scripts that have any, and the scripts inside them. The answer is
the number of loops still to leave, and the scripts that go on. -/
def unwind (inherited : Option Countdown) (levels : Nat) :
    List Activation → Act σ ω (Nat × List Activation)
  | [] => return (levels, [])
  | a :: callers => do
    let (left, a) ← leaveLoops (countdown? inherited callers) a levels a.replays
    if left = 0 then return (0, a :: callers) else unwind inherited left callers

/-- Carries out what a line made of its script; the answer is as for `unwind`. -/
def follow (inherited : Option Countdown) (callers : List Activation) :
    Move → Act σ ω (Nat × List Activation)
  | .next a => return (0, a :: callers)
  | .call callee a => return (0, callee :: a :: callers)
  | .leave => return (0, callers)
  | .unwind levels => unwind inherited levels callers

/-- Takes the next line of the innermost script; the answer is as for `unwind`. -/
def turn (settings : Settings) (inherited : Option Countdown) :
    List Activation → Act σ ω (Nat × List Activation)
  | [] => return (0, [])
  | a :: callers =>
    advance settings (countdown? inherited callers) a >>= follow inherited callers

/-- Goes on with the scripts that are left, or succeeds if there is none. -/
def resume : Nat × List Activation → Act σ ω Status
  | (0, []) => return .done .success
  | (0, activations) => return .running activations
  | (_ + 1, _) => Act.crash .strayBreak

/-- Turns the trouble of a step into the end of the run. A failure abandons all scripts; a crash
leaves everything as it is. -/
def settle (activations : List Activation) (act : Act σ ω (Nat × List Activation))
    (s : Session σ ω) : Status × Session σ ω :=
  match (act >>= resume).exec s with
  | (.ok status, s) => (status, s)
  | (.error (.crash c), s) => (.done (.crash c), s)
  | (.error (.fault f), s) =>
    match (abandon none f activations).exec s with
    | (.ok f, s) => (.done (.failure f), s)
    | (.error (.fault f), s) => (.done (.failure f), s)
    | (.error (.crash c), s) => (.done (.crash c), s)

/-- One step of the machine. -/
def step (settings : Settings) (activations : List Activation) (s : Session σ ω) :
    Status × Session σ ω :=
  settle activations (turn settings none activations) s

/-- Runs the machine to its end, within a number of steps. -/
def run (settings : Settings) : Nat → List Activation → Session σ ω → Outcome × Session σ ω
  | 0, _, s => (.crash .endless, s)
  | fuel + 1, activations, s =>
    match step settings activations s with
    | (.done outcome, s) => (outcome, s)
    | (.running activations, s) => run settings fuel activations s

/-- Continues from a status. -/
def continueFrom (settings : Settings) (fuel : Nat) :
    Status × Session σ ω → Outcome × Session σ ω
  | (.done outcome, s) => (outcome, s)
  | (.running activations, s) => run settings fuel activations s

/-- Runs a script from a feed. -/
def runScript (settings : Settings) (fuel : Nat) (source : String) (feed : Feed)
    (s : Session σ ω) : Outcome × Session σ ω :=
  let start : Act σ ω (Nat × List Activation) := do
    let a ← beginScript source 0 feed none
    return (0, [a])
  continueFrom settings fuel (settle [] start s)

/-- Runs one command given as words. -/
def runCommand (settings : Settings) (fuel : Nat) (words : List String) (s : Session σ ω) :
    Outcome × Session σ ω :=
  let a : Activation := { role := .command, source := "command", feed := { pending := some [] } }
  if words.isEmpty then (.success, s)
  else
    continueFrom settings fuel
      (settle [a]
        (located a.source none (dispatch settings none a words none) >>= follow none []) s)

end InputScript.Machine
