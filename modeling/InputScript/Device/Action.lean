import InputScript.Device.Handle

/-!
# Device actions

The input verbs in terms of the primitives. Every action ends with a sync; key presses and releases
are synced one by one, all other actions form one frame.
-/

namespace InputScript.Device

/-- The device as scripts use it. -/
structure Controls where
  profile : Profile := {}
  /-- The pause after each tap if no other is given, in seconds. -/
  keyDelay : Binary64 := .round (mkRat 1 20)
deriving DecidableEq, Repr

/-- One part of a packet. -/
inductive Item
  | keyDown (code : Int)
  | keyUp (code : Int)
  | relative (axis : Int) (delta : Binary64)
  | absolute (axis : Int) (percent : Binary64)
  | sync
  /-- A part of no known kind. -/
  | unknown
deriving DecidableEq, Repr

/-- The number of taps. A run time allows as many as fit; at least one is always done. -/
def tapCount (count : Option Int) (runTime : Option Binary64) (delay : Binary64) :
    Except Crash Nat :=
  let asked := count.getD 0
  let atLeastOne (n : Int) : Nat := (max n 1).toNat
  match runTime with
  | none => .ok (atLeastOne asked)
  | some time =>
    if time.isZero then .ok (atLeastOne asked)
    else if delay.isZero then .error .divisionByZero
    else
      match (time / delay).truncate with
      | .error .notANumber => .error .notAnInteger
      | .error .infinite => .error .overflow
      | .ok limit => .ok (atLeastOne (if asked = 0 ∨ limit < asked then limit else asked))

variable {σ ω : Type} [Host σ] [Sink ω]

/-- Presses or releases keys in order, each with its own sync. -/
def keys (p : Profile) (pressed : Bool) : List Int → Act σ ω Unit
  | [] => return
  | code :: codes => do
    key p code pressed true
    keys p pressed codes

/-- Presses the keys in order, releases them in reverse order and pauses, a number of times. -/
def tapCycles (p : Profile) (codes : List Int) (delay : Binary64) : Nat → Act σ ω Unit
  | 0 => return
  | n + 1 => do
    keys p true codes
    keys p false codes.reverse
    Act.wait delay
    tapCycles p codes delay n

/-- Taps keys; the answer is the number of taps. -/
def tap (c : Controls) (codes : List Int) (count : Option Int := none)
    (runTime : Option Binary64 := none) (delay : Option Binary64 := none) : Act σ ω Nat := do
  let delay := delay.getD c.keyDelay
  match tapCount count runTime delay with
  | .error e => Act.crash e
  | .ok n =>
    Act.note (.keyTap codes.length n delay)
    tapCycles c.profile codes delay n
    return n

/-- Moves relative axes without a sync. -/
def moveAxes (p : Profile) (verb : String) : List (Nat × Binary64) → Act σ ω Unit
  | [] => return
  | (axis, delta) :: rest => do
    relative p axis delta false (some verb)
    moveAxes p verb rest

/-- Moves the pointer, or the second stick if `alternate`. -/
def move (p : Profile) (deltas : List Binary64) (alternate : Bool := false)
    (verb : String := "move") : Act σ ω Unit := do
  moveAxes p verb ((mainAxes alternate).zip deltas)
  sync p

/-- Turns a wheel. -/
def wheel (p : Profile) (delta : Binary64) (horizontal : Bool := false)
    (verb : String := "wheel") : Act σ ω Unit :=
  relative p (if horizontal then horizontalWheelAxis else wheelAxis : Nat) delta true (some verb)

/-- Sets absolute axes without a sync. -/
def placeAxes (p : Profile) (verb : String) : List (Nat × Binary64) → Act σ ω Unit
  | [] => return
  | (axis, percent) :: rest => do
    absolute p axis percent false (some verb)
    placeAxes p verb rest

/-- Moves the pointer, or the second stick if `alternate`, to a place. -/
def position (p : Profile) (percents : List Binary64) (alternate : Bool := false)
    (verb : String := "position") : Act σ ω Unit := do
  placeAxes p verb ((mainAxes alternate).zip percents)
  sync p

/-- Emits one part of a packet. -/
def emitItem (p : Profile) (verb : String) : Item → Act σ ω Unit
  | .keyDown code => key p code true
  | .keyUp code => key p code false
  | .relative axis delta => relative p axis delta false (some verb)
  | .absolute axis percent => absolute p axis percent false (some verb)
  | .sync => sync p
  | .unknown => Act.crash .unknownItem

/-- Emits the parts of a packet. -/
def emitItems (p : Profile) (verb : String) : List Item → Act σ ω Unit
  | [] => return
  | item :: items => do
    emitItem p verb item
    emitItems p verb items

/-- Emits a packet and ends its frame. -/
def packet (p : Profile) (items : List Item) (verb : String := "input") : Act σ ω Unit := do
  emitItems p verb items
  sync p

end InputScript.Device
