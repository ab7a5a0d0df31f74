/-!
# Clocks and waiting

A clock can be read and slept on. Waiting for a time means to sleep until the clock has reached the
time of the first reading plus the delay; a sleep that ends early is resumed for what remains. The
wait is stated for any type of time, so that it can be studied in exact arithmetic and run in
binary64.

`SteppedClock` is a clock that advances only by what is asked of it: by a fixed tick at each reading,
and at each sleep by the time slept times the next wake factor.
-/

namespace InputScript

/-- A source of time with a state of type `κ`. -/
class Clock (τ : outParam Type) (κ : Type) where
  /-- The time now. -/
  read : κ → τ × κ
  /-- Sleeps for a while; the sleep may end early. -/
  sleep : τ → κ → κ
  /-- A bound on the number of sleeps that one wait may take. -/
  patience : κ → Nat

section Wait

variable {τ κ : Type} [Clock τ κ] [Add τ] [Sub τ] [LT τ] [DecidableLT τ] [OfNat τ 0]

/-- Sleeps until a deadline. The answer is `false` if the bound on the number of sleeps was too
small. -/
def waitUntil (deadline : τ) : Nat → τ → κ → Bool × κ
  | bound, remaining, clock =>
    if 0 < remaining then
      match bound with
      | 0 => (false, clock)
      | bound + 1 =>
        let (now, clock) := Clock.read (Clock.sleep remaining clock)
        waitUntil deadline bound (deadline - now) clock
    else (true, clock)

/-- Waits for a delay from now on. -/
def waitFor (delay : τ) (clock : κ) : Bool × κ :=
  let (now, clock') := Clock.read clock
  waitUntil (now + delay) (Clock.patience clock) delay clock'

end Wait

/-- A clock that moves only when it is used. -/
structure SteppedClock (τ : Type) where
  now : τ
  /-- How far each reading moves the clock. -/
  tick : τ
  /-- The part of its time that each next sleep lasts; all of it once the list is used up. -/
  wake : List τ := []
  /-- The sleeps asked for, last first. -/
  sleeps : List τ := []
deriving DecidableEq, Repr

namespace SteppedClock

variable {τ : Type} [Add τ] [Mul τ]

def read (c : SteppedClock τ) : τ × SteppedClock τ :=
  (c.now, { c with now := c.now + c.tick })

def sleep (t : τ) (c : SteppedClock τ) : SteppedClock τ :=
  match c.wake with
  | factor :: wake => { c with now := c.now + t * factor, wake, sleeps := t :: c.sleeps }
  | [] => { c with now := c.now + t, sleeps := t :: c.sleeps }

/-- Early wake-ups are bounded by the factors that are left; rounding may call for a few more
sleeps. -/
def patience (c : SteppedClock τ) : Nat := c.wake.length + 64

instance : Clock τ (SteppedClock τ) := ⟨read, sleep, patience⟩

end SteppedClock

end InputScript
