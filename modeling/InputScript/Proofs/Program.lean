import InputScript.Machine.Step

/-!
# Structured programs

The machine knows no blocks: it executes, collects, replays and skips lines.  Here a script is a
tree, and `Block.interpret` runs the tree by recursion.  A loop body is run once per iteration, only
one branch of an `if` is run, and leaving loops or the script is a `Signal` that is handed outwards.

A control line carries the proof that it begins with its keyword, any other line the proof that it
begins with none, so that every tree is the tree of its lines.

Iterations have a bound, since a loop need not end; an interpretation that hits the bound says so
and has no other answer.  What a line does apart from control flow, and the notes that are made in
the journal, are those of the machine.
-/

namespace InputScript

/-- Whether a verb belongs to a block or leaves one. -/
def Verb.isControl : Verb → Bool
  | .loop | .cond | .otherwise | .leave | .close | .exit => true
  | _ => false

theorem Verb.opensBlock_of_not_isControl {verb : Verb} (h : verb.isControl = false) :
    verb.opensBlock = false := by
  cases verb <;> first | rfl | cases h

/-- A verb found by a name has that name. -/
theorem Verb.name_of_ofName? {name : String} {verb : Verb} (h : Verb.ofName? name = some verb) :
    verb.name = name := by
  have hbeq := List.find?_some h
  exact eq_of_beq hbeq

@[simp] theorem Verb.ofName?_name (verb : Verb) : Verb.ofName? verb.name = some verb := by
  cases verb <;> decide

namespace Machine

open Device (Sink)
open Script (Line)

/-! ## Syntax -/

/-- A line that begins with the name of a verb. -/
structure Headed (verb : Verb) extends Line where
  head : Word.firstWord text = .ok (some verb.name)

/-- A line that begins with no keyword of a block. -/
structure Plain extends Line where
  word : Option String
  head : Word.firstWord text = .ok word
  plain : ∀ verb : Verb, verb.isControl = true → word ≠ some verb.name

/-- A sequence of statements, each with those that follow it. -/
inductive Block
  | done
  | plain (line : Plain) (next : Block)
  | loop (head : Headed .loop) (body : Block) (close : Headed .close) (next : Block)
  | cond (head : Headed .cond) (yes : Block) (close : Headed .close) (next : Block)
  | branch (head : Headed .cond) (yes : Block) (otherwise : Headed .otherwise) (no : Block)
      (close : Headed .close) (next : Block)
  | leave (line : Headed .leave) (next : Block)
  | exit (line : Headed .exit) (next : Block)

/-- The lines of a block, in order. -/
def Block.lines : Block → List Line
  | .done => []
  | .plain line next => line.toLine :: next.lines
  | .loop head body close next => head.toLine :: (body.lines ++ close.toLine :: next.lines)
  | .cond head yes close next => head.toLine :: (yes.lines ++ close.toLine :: next.lines)
  | .branch head yes otherwise no close next =>
    head.toLine :: (yes.lines ++ otherwise.toLine :: (no.lines ++ close.toLine :: next.lines))
  | .leave line next => line.toLine :: next.lines
  | .exit line next => line.toLine :: next.lines

/-- Splitting a line, when it succeeds, gives a keyword of a block where the line begins with that
keyword as it stands, and nowhere else. -/
def KeepsKeyword (σ ω : Type) [Host σ] (shell : String) (line : Line) : Prop :=
  ∀ word, Word.firstWord line.text = .ok word →
    ∀ (s s' : Session σ ω) (words : List String),
      (Expansion.split shell line.text (some line.number)).exec s = (.ok words, s') →
        ∀ verb : Verb, verb.isControl = true →
          (words.head? = some verb.name ↔ word = some verb.name)

/-! ## Interpretation -/

/-- How a block ends. -/
inductive Signal
  /-- What follows the block is next. -/
  | next
  /-- Some of the loops around the block are left. -/
  | leave (levels : Nat)
  /-- The script is left. -/
  | exit
  /-- The bound on iterations was too small. -/
  | unfinished
deriving DecidableEq, Repr

/-- What a block needs to know of its surroundings. -/
structure Scope where
  source : String
  /-- How many scripts are around. -/
  depth : Nat
  /-- How many blocks are around. -/
  height : Nat
  /-- The loops around, innermost first. -/
  loops : List Countdown
  /-- The loop that the script is called from. -/
  inherited : Option Countdown

namespace Scope

/-- The innermost loop around. -/
def countdown? (sc : Scope) : Option Countdown :=
  match sc.loops with
  | c :: _ => some c
  | [] => sc.inherited

/-- Inside of a branch. -/
def inCond (sc : Scope) : Scope := { sc with height := sc.height + 1 }

/-- Inside of a loop. -/
def inLoop (sc : Scope) (c : Countdown) : Scope :=
  { sc with height := sc.height + 1, loops := c :: sc.loops }

end Scope

variable {σ ω : Type} [Host σ] [Sink ω]

/-- Goes on with `next` if `act` ends with nothing left. -/
def Signal.andThen (act next : Act σ ω Signal) : Act σ ω Signal := do
  match ← act with
  | .next => next
  | signal => return signal

/-- The command of a control line. -/
def heading (settings : Settings) (line : Line) : Act σ ω Invocation := do
  let words ← Expansion.split settings.shell line.text (some line.number)
  commandOf words (some line.number)

/-- Executes the command of a control line, with a failure placed at the line. -/
def atLine {α : Type} (settings : Settings) (sc : Scope) (line : Line)
    (act : Invocation → Act σ ω α) : Act σ ω α :=
  located sc.source (some line.number) (heading settings line >>= act)

/-- Begins a loop of so many lines. -/
def openLoop (settings : Settings) (sc : Scope) (size : Nat) (inv : Invocation) :
    Act σ ω Countdown := do
  let (count, time) ← loopLimits inv
  let now ← Act.readClock
  let c : Countdown := { remaining := count, deadline := time.map (now + ·) }
  checkDepth settings sc.height inv.name
  Act.note (.loopStarted count time size inv.line)
  publish (some c)
  return c

/-- One iteration less. -/
def Countdown.next (c : Countdown) : Countdown :=
  { c with remaining := c.remaining.map (· - 1) }

/-- Runs the body of a loop once more while its count and its time last. -/
def iterate (outer : Option Countdown) (line : Option Nat) (body : Countdown → Act σ ω Signal) :
    Nat → Nat → Countdown → Act σ ω Signal
  | 0, _, _ => return .unfinished
  | bound + 1, iterations, c => do
    match ← body c with
    | .next =>
      let timeDone ← timeIsUp c.deadline
      if c.next.remaining = some 0 ∨ timeDone = true then
        publish outer
        Act.note (.loopFinished (iterations + 1) line)
        return .next
      else
        Act.note (.loopContinued c.next.remaining (iterations + 1))
        publish (some c.next)
        iterate outer line body bound (iterations + 1) c.next
    | .leave levels =>
      publish outer
      Act.note (.loopBroken (iterations + 1) line)
      return if levels ≤ 1 then .next else .leave (levels - 1)
    | signal => return signal

/-- Decides an `if`. -/
def openCond (settings : Settings) (sc : Scope) (inv : Invocation) : Act σ ω Bool := do
  let truth ← judge settings inv
  checkDepth settings sc.height inv.name
  return truth

/-- Takes a `break`: as many loops are left as the line says, if there are so many. -/
def takeBreak (sc : Scope) (inv : Invocation) : Act σ ω Nat := do
  let levels ← breakLevels inv
  if sc.loops.length < levels then
    Act.fail (.control (.mismatched inv.name (some sc.loops.length)))
  else
    Act.note (.loopBreak levels)
    return levels

/-- The command of a line that is no control line, executed if there is any.  The answer is the
script that it calls. -/
def executeText (settings : Settings) (depth : Nat) (line : Line) :
    Act σ ω (Option Activation) := do
  let words ← Expansion.split settings.shell line.text (some line.number)
  if words.isEmpty then return none
  else
    let inv ← commandOf words (some line.number)
    executePlain settings depth inv

/-- Executes a line that is no control line, with a failure placed at the line. -/
def startPlain (settings : Settings) (sc : Scope) (line : Line) :
    Act σ ω (Option Activation) :=
  located sc.source (some line.number) (executeText settings sc.depth line)

/-- Runs called scripts to their end, inside of the loop that they inherit.  The machine runs them;
a failure abandons them, and loops that they leave but do not have are left by the caller. -/
def runCalled (settings : Settings) (inherited : Option Countdown) :
    Nat → List Activation → Act σ ω Signal
  | 0, _ => return .unfinished
  | bound + 1, activations => do
    let (levels, activations) ← tryCatch (turn settings inherited activations) fun
      | .fault f => do
        let f ← abandon inherited f activations
        throw (.fault f)
      | .crash c => throw (.crash c)
    match levels, activations with
    | 0, [] => return .next
    | 0, activations => runCalled settings inherited bound activations
    | levels + 1, _ => return .leave (levels + 1)

/-- Runs a block. -/
def Block.interpret (settings : Settings) (bound : Nat) : Block → Scope → Act σ ω Signal
  | .done, _ => return .next
  | .plain line next, sc => do
    match ← startPlain settings sc line.toLine with
    | none => next.interpret settings bound sc
    | some callee =>
      Signal.andThen
        (located sc.source (some line.number) (runCalled settings sc.countdown? bound [callee]))
        (next.interpret settings bound sc)
  | .loop head body _ next, sc => do
    let c ← atLine settings sc head.toLine (openLoop settings sc body.lines.length)
    Signal.andThen
      (iterate sc.countdown? (some head.number)
        (fun c => body.interpret settings bound (sc.inLoop c)) bound 0 c)
      (next.interpret settings bound sc)
  | .cond head yes close next, sc => do
    if ← atLine settings sc head.toLine (openCond settings sc) then
      Signal.andThen (yes.interpret settings bound sc.inCond) do
        let _ ← atLine settings sc close.toLine pure
        next.interpret settings bound sc
    else
      Act.note (.omitFinished close.number Verb.close.name)
      next.interpret settings bound sc
  | .branch head yes otherwise no close next, sc => do
    if ← atLine settings sc head.toLine (openCond settings sc) then
      Signal.andThen (yes.interpret settings bound sc.inCond) do
        let _ ← atLine settings sc otherwise.toLine pure
        Act.note (.omitFinished close.number Verb.close.name)
        next.interpret settings bound sc
    else
      Act.note (.omitFinished otherwise.number Verb.otherwise.name)
      Signal.andThen (no.interpret settings bound sc.inCond) do
        let _ ← atLine settings sc close.toLine pure
        next.interpret settings bound sc
  | .leave line _, sc => do
    let levels ← atLine settings sc line.toLine (takeBreak sc)
    return .leave levels
  | .exit line _, sc => do
    let _ ← atLine settings sc line.toLine pure
    return .exit

/-- How the run of a script ends whose block ends so; nothing if the bound was too small. -/
def concluded? (source : String) :
    Except (Trouble Failure) Signal × Session σ ω → Option (Outcome × Session σ ω)
  | (.ok .next, s) =>
    some (.success, { s with journal := .scriptFinished source :: s.journal })
  | (.ok .exit, s) =>
    let s := { s with journal := .scriptExited source :: s.journal }
    let s := ((publish none).exec s).2
    some (.success, { s with journal := .scriptFinished source :: s.journal })
  | (.ok (.leave _), s) => some (.crash .strayBreak, s)
  | (.ok .unfinished, _) => none
  | (.error (.fault f), s) => some (.failure f, ((publish none).exec s).2)
  | (.error (.crash c), s) => some (.crash c, s)

/-- How the run of a script ends that is given as a block, and the session it leaves; nothing if the
bound was too small. -/
def Block.outcome? (settings : Settings) (bound : Nat) (source : String) (b : Block)
    (s : Session σ ω) : Option (Outcome × Session σ ω) :=
  let scope : Scope := { source, depth := 0, height := 0, loops := [], inherited := none }
  let s := { s with journal := .scriptStarted source 0 :: s.journal }
  concluded? source ((b.interpret settings bound scope).exec s)

end Machine

end InputScript
