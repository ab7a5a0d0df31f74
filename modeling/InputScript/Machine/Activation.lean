import InputScript.Fault
import InputScript.Machine.Body

/-!
# Activations

Each script that is being run has an activation: where its lines come from, the blocks it is inside
of, and the loops it is replaying. Blocks are frames on a stack, innermost first. A loop frame holds
the collected body; while the loop is replayed, lines come from there.

Skipping the lines of a branch that is not taken is an omission. It belongs to the branch frame on
top of the stack when it began, and ends at that branch's `else` or `end`.
-/

namespace InputScript.Machine

open Script (Line RawLine Scratch)

/-! ## Frames -/

/-- How long a loop goes on. -/
structure Countdown where
  /-- Iterations left, the current one included; unbounded if `none`. -/
  remaining : Option Nat
  /-- The time after which no new iteration starts. -/
  deadline : Option Binary64
deriving DecidableEq, Repr

/-- An active loop. -/
structure LoopFrame extends Countdown where
  line : Option Nat
  body : Scratch := {}
deriving DecidableEq, Repr

/-- The frame of a loop that is left for good; its body is forgotten. -/
def LoopFrame.spent (f : LoopFrame) : LoopFrame := { f with body := f.body.truncate }

/-- An active `if`. -/
structure CondFrame where
  line : Option Nat
  elseSeen : Bool := false
deriving DecidableEq, Repr

/-- A block that was entered and not yet left. -/
inductive Frame
  | loop (frame : LoopFrame)
  | cond (frame : CondFrame)
deriving DecidableEq, Repr

namespace Frame

def kind : Frame → BlockKind
  | .loop _ => .loop
  | .cond _ => .cond

def line : Frame → Option Nat
  | .loop f => f.line
  | .cond f => f.line

def loop? : Frame → Option LoopFrame
  | .loop f => some f
  | .cond _ => none

end Frame

/-- Lines are being skipped. -/
structure Omission where
  /-- The height of the stack when it began, the branch frame on top. -/
  height : Nat
  elseSeen : Bool
  /-- Blocks opened inside the skipped lines. -/
  nesting : Nat := 0
deriving DecidableEq, Repr

/-- A loop whose body is being replayed. -/
structure Replay where
  /-- The height of the stack with the loop's frame on top. -/
  base : Nat
  /-- Iterations that are complete. -/
  iterations : Nat := 0
deriving DecidableEq, Repr

/-! ## Feeds -/

/-- Where a script's own lines come from, and how far they were read. -/
structure Feed where
  /-- The physical lines not yet read; `none` means the shared standard input. -/
  pending : Option (List RawLine)
  /-- The physical lines read so far, last first. -/
  past : List RawLine := []
deriving DecidableEq, Repr

namespace Feed

/-- How many physical lines were read. -/
def consumed (f : Feed) : Nat := f.past.length

/-- The physical lines not yet read. -/
def rest (f : Feed) (input : List RawLine) : List RawLine := f.pending.getD input

/-- The feed and the standard input after reading a number of physical lines. -/
def take (f : Feed) (input : List RawLine) (count : Nat) : Feed × List RawLine :=
  let rest := f.rest input
  let past := (rest.take count).reverse ++ f.past
  match f.pending with
  | some _ => ({ pending := some (rest.drop count), past }, input)
  | none => ({ pending := none, past }, rest.drop count)

/-- The feed and the standard input after reading the physical line of a given number. -/
def skipPast (f : Feed) (input : List RawLine) (number : Nat) : Feed × List RawLine :=
  f.take input (number - f.consumed)

/-- The feed and the standard input after reading everything. -/
def skipAll (f : Feed) (input : List RawLine) : Feed × List RawLine :=
  f.take input (f.rest input).length

end Feed

/-! ## Activations -/

/-- Whether an activation runs a script or a single command. -/
inductive Role
  | script
  | command
deriving DecidableEq, Repr

/-- A script or command that is being run. -/
structure Activation where
  role : Role
  /-- The name used in error positions. -/
  source : String
  /-- How many scripts it is nested in. -/
  depth : Nat := 0
  feed : Feed
  /-- The blocks it is inside of, innermost first. -/
  frames : List Frame := []
  omission : Option Omission := none
  /-- The loops being replayed, innermost first. -/
  replays : List Replay := []
  /-- The line of the caller that runs it. -/
  calledFrom : Option Nat := none
deriving DecidableEq, Repr

namespace Activation

/-- The number of blocks. -/
def height (a : Activation) : Nat := a.frames.length

/-- The loops among the blocks, innermost first. -/
def loops (a : Activation) : List LoopFrame := a.frames.filterMap Frame.loop?

/-- The stack without its blocks above a height. -/
def cutTo (a : Activation) (height : Nat) : Activation :=
  { a with frames := a.frames.drop (a.height - height) }

/-- Removes the innermost block. -/
def pop (a : Activation) : Activation := { a with frames := a.frames.drop 1 }

/-- Enters a block. -/
def push (a : Activation) (f : Frame) : Activation := { a with frames := f :: a.frames }

/-- The loop frame on top of the stack at a height. -/
def loopAt? (a : Activation) (height : Nat) : Option LoopFrame :=
  a.frames[a.height - height]?.bind Frame.loop?

/-- Replaces the frame on top of the stack at a height. -/
def setLoopAt (a : Activation) (height : Nat) (f : LoopFrame) : Activation :=
  { a with frames := a.frames.set (a.height - height) (.loop f) }

/-- Takes the loop off the stack whose frame is on top at a height; the frame comes with the
activation. -/
def endLoop (a : Activation) (height : Nat) (f : LoopFrame) : LoopFrame × Activation :=
  (f.spent, (a.setLoopAt height f.spent).pop)

/-- Breaks out of the loop whose frame is on top at a height, and out of the blocks inside it; the
frame comes with the activation. -/
def breakLoop (a : Activation) (height : Nat) : Option LoopFrame × Activation :=
  ((a.loopAt? height).map LoopFrame.spent, { a.cutTo (height - 1) with omission := none })

/-- Leaves all blocks. -/
def reset (a : Activation) : Activation :=
  { a with frames := [], omission := none, replays := [] }

/-- Starts to skip lines; the branch frame is on top of the stack. -/
def startOmission (a : Activation) (elseSeen : Bool) : Activation :=
  { a with omission := some { height := a.height, elseSeen } }

/-- Marks the branch on top of the stack as having had its `else`. -/
def markElse (a : Activation) : Activation :=
  match a.frames with
  | .cond c :: frames => { a with frames := .cond { c with elseSeen := true } :: frames }
  | _ => a

/-! ### Reading lines -/

/-- What comes next: a line of the body being replayed, or of the script itself. -/
def fetch (a : Activation) (input : List RawLine) : Script.Next × Activation × List RawLine :=
  match a.replays with
  | replay :: _ =>
    match a.loopAt? replay.base with
    | none => (.finished, a, input)
    | some frame =>
      match frame.body.advance with
      | some (line, body) => (.line line, a.setLoopAt replay.base { frame with body }, input)
      | none => (.finished, a, input)
  | [] =>
    let (next, consumed) := Script.next a.feed.consumed (a.feed.rest input)
    let (feed, input) := a.feed.skipPast input consumed
    (next, { a with feed }, input)

/-- The lines to come in the current source, up to one that cannot be decoded. -/
def upcoming (a : Activation) (input : List RawLine) :
    List Line × Option Script.DecodeFault :=
  match a.replays with
  | replay :: _ =>
    match a.loopAt? replay.base with
    | none => ([], none)
    | some frame => (frame.body.rest, none)
  | [] => Script.readLinesFrom a.feed.consumed (a.feed.rest input)

/-- Reads on past a line of the current source, after which `rest` is left of the lines to come. -/
def skipPast (a : Activation) (input : List RawLine) (line : Line) (rest : List Line) :
    Activation × List RawLine :=
  match a.replays with
  | replay :: _ =>
    match a.loopAt? replay.base with
    | none => (a, input)
    | some frame =>
      let body := { frame.body with cursor := frame.body.lines.length - rest.length }
      (a.setLoopAt replay.base { frame with body }, input)
  | [] =>
    let (feed, input) := a.feed.skipPast input line.number
    ({ a with feed }, input)

/-- What is left of the standard input after the lines of the current source were read up to the
physical line of a given number, or to the end. -/
def drain (a : Activation) (input : List RawLine) (upTo : Option Nat) : List RawLine :=
  match a.replays with
  | _ :: _ => input
  | [] =>
    match upTo with
    | some number => (a.feed.skipPast input number).2
    | none => (a.feed.skipAll input).2

/-- The countdown of a script's innermost loop, which may be inherited from the script that called
it. -/
def countdown? (a : Activation) (inherited : Option Countdown) : Option Countdown :=
  match a.loops with
  | frame :: _ => some frame.toCountdown
  | [] => inherited

end Activation

/-- The countdown of the innermost loop of the running scripts, a script's own loops before those of
the script that called it. The outermost may inherit a loop as well. -/
def countdown? (inherited : Option Countdown) : List Activation → Option Countdown
  | [] => inherited
  | a :: callers => a.countdown? (countdown? inherited callers)

end InputScript.Machine
