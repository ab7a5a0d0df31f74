/-!
# Binary64 numbers

Times, delays, axis values and conditions are computed in the binary64 format. A number is kept as
its exact rational value, beside the infinities, the negative zero and the one value that is not a
number, and every operation is the exact rational operation followed by `round`. So a fact about a
computed value is a fact about rationals and one monotone function, and no operation of the
machine's own floating point unit is involved.

`round` takes the nearest value with a significand of 53 bits and an exponent in the range of the
format, a tie going to the even significand.
-/

namespace InputScript

/-- A binary64 number by its value. -/
inductive Binary64
  | nan
  | infinity (negative : Bool)
  | negativeZero
  | finite (value : Rat)
deriving DecidableEq, Repr

namespace Binary64

/-! ## Rounding -/

/-- The power of two with a given exponent. -/
def twoPow : Int → Rat
  | .ofNat k => (Nat.pow 2 k : Rat)
  | .negSucc k => mkRat 1 (Nat.pow 2 (k + 1))

/-- The integer nearest to a rational, a half going to the even neighbour. -/
def roundHalfEven (q : Rat) : Int :=
  let below := q.floor
  let excess := q - below
  if excess < 1 / 2 then below
  else if 1 / 2 < excess then below + 1
  else if below % 2 = 0 then below
  else below + 1

/-- The exponent of the leading bit of a positive rational. -/
def leadingExponent (q : Rat) : Int :=
  let guess : Int := (q.num.natAbs.log2 : Int) - (q.den.log2 : Int)
  if twoPow guess ≤ q then guess else guess - 1

/-- The least exponent of a unit in the last place. -/
def leastUnit : Int := -1074

/-- The exponent of the unit in the last place of numbers as large as `q`. -/
def unitExponent (q : Rat) : Int :=
  max (leadingExponent q.abs - 52) leastUnit

/-- The nearest multiple of the unit in the last place of numbers as large as `q`. -/
def nearest (q : Rat) : Rat :=
  (roundHalfEven (q * twoPow (-unitExponent q)) : Rat) * twoPow (unitExponent q)

/-- The least power of two beyond the range. -/
def overflowBound : Rat := twoPow 1024

/-- The binary64 number nearest to a rational. -/
def round (q : Rat) : Binary64 :=
  if q = 0 then .finite 0
  else
    let value := nearest q
    if overflowBound ≤ value.abs then .infinity (decide (q < 0))
    else if value = 0 && decide (q < 0) then .negativeZero
    else .finite value

/-- The binary64 number nearest to an integer; `none` beyond the range. -/
def ofInt? (n : Int) : Option Binary64 :=
  match round n with
  | .infinity _ => none
  | x => some x

/-- A natural number that the format holds exactly. -/
def ofNat (n : Nat) : Binary64 := .finite n

instance (n : Nat) : OfNat Binary64 n := ⟨ofNat n⟩

/-! ## Classes and views -/

/-- The rational value of a finite number. -/
def toRat? : Binary64 → Option Rat
  | .finite q => some q
  | .negativeZero => some 0
  | _ => none

def isFinite (x : Binary64) : Bool := x.toRat?.isSome

def isNaN : Binary64 → Bool
  | .nan => true
  | _ => false

/-- Whether the sign is negative, also of a zero. -/
def isNegative : Binary64 → Bool
  | .nan => false
  | .infinity negative => negative
  | .negativeZero => true
  | .finite q => decide (q < 0)

def isZero : Binary64 → Bool
  | .negativeZero => true
  | .finite q => decide (q = 0)
  | _ => false

/-- A zero of a given sign. -/
def zero (negative : Bool) : Binary64 :=
  if negative then .negativeZero else .finite 0

/-! ## Arithmetic -/

def neg : Binary64 → Binary64
  | .nan => .nan
  | .infinity negative => .infinity (!negative)
  | .negativeZero => .finite 0
  | .finite q => if q = 0 then .negativeZero else .finite (-q)

instance : Neg Binary64 := ⟨neg⟩

def add : Binary64 → Binary64 → Binary64
  | .nan, _ => .nan
  | _, .nan => .nan
  | .infinity a, .infinity b => if a = b then .infinity a else .nan
  | .infinity a, _ => .infinity a
  | _, .infinity b => .infinity b
  | .negativeZero, .negativeZero => .negativeZero
  | .negativeZero, .finite q => .finite q
  | .finite q, .negativeZero => .finite q
  | .finite p, .finite q => round (p + q)

instance : Add Binary64 := ⟨add⟩

instance : Sub Binary64 := ⟨fun x y => x + -y⟩

def mul (x y : Binary64) : Binary64 :=
  let negative := x.isNegative != y.isNegative
  match x.toRat?, y.toRat? with
  | some p, some q => if p * q = 0 then zero negative else round (p * q)
  | _, _ =>
    if x.isNaN || y.isNaN || x.isZero || y.isZero then .nan else .infinity negative

instance : Mul Binary64 := ⟨mul⟩

/-- Division; a nonzero number divided by a zero is infinite. -/
def div (x y : Binary64) : Binary64 :=
  let negative := x.isNegative != y.isNegative
  match x.toRat?, y.toRat? with
  | some p, some q =>
    if q = 0 then (if p = 0 then .nan else .infinity negative)
    else if p = 0 then zero negative
    else round (p / q)
  | some _, none => if y.isNaN then .nan else zero negative
  | none, some _ => if x.isNaN then .nan else .infinity negative
  | none, none => .nan

instance : Div Binary64 := ⟨div⟩

/-! ## Order -/

/-- Strictly below; nothing is below or above `nan`, and the two zeros are equal. -/
def lt : Binary64 → Binary64 → Bool
  | .nan, _ => false
  | _, .nan => false
  | .infinity a, .infinity b => a && !b
  | .infinity a, _ => a
  | _, .infinity b => !b
  | x, y => decide (x.toRat?.getD 0 < y.toRat?.getD 0)

/-- Equal as numbers. -/
def eq : Binary64 → Binary64 → Bool
  | .nan, _ => false
  | _, .nan => false
  | .infinity a, .infinity b => a == b
  | .infinity _, _ => false
  | _, .infinity _ => false
  | x, y => decide (x.toRat?.getD 0 = y.toRat?.getD 0)

def le (x y : Binary64) : Bool := x.lt y || x.eq y

instance : LT Binary64 := ⟨fun x y => x.lt y = true⟩

instance : LE Binary64 := ⟨fun x y => x.le y = true⟩

instance : DecidableLT Binary64 := fun x y => inferInstanceAs (Decidable (x.lt y = true))

instance : DecidableLE Binary64 := fun x y => inferInstanceAs (Decidable (x.le y = true))

/-! ## Integers -/

/-- Why a number has no integer part. -/
inductive NoInteger
  | notANumber
  | infinite
deriving DecidableEq, Repr

/-- The integer part, toward zero. -/
def truncate : Binary64 → Except NoInteger Int
  | .nan => .error .notANumber
  | .infinity _ => .error .infinite
  | .negativeZero => .ok 0
  | .finite q => .ok (q.num.tdiv q.den)

/-! ## Representation -/

/-- The magnitude of a finite number as a significand and a unit exponent. -/
def significand (q : Rat) : Nat × Int :=
  if q = 0 then (0, leastUnit)
  else
    let e := unitExponent q
    ((roundHalfEven (q.abs * twoPow (-e))).toNat, e)

/-- The leading bit of a normal significand, which its 64 bits leave out. -/
def hiddenBit : Nat := 0x10000000000000

/-- The 64 bits of a number; every value that is not a number has the same bits. -/
def toBits (x : Binary64) : Nat :=
  let sign := if x.isNegative then 0x8000000000000000 else 0
  match x with
  | .nan => 0x7FF8000000000000
  | .infinity _ => sign + 0x7FF0000000000000
  | .negativeZero => sign
  | .finite q =>
    let (m, e) := significand q
    if m < hiddenBit then sign + m
    else sign + (e - leastUnit + 1).toNat * hiddenBit + (m - hiddenBit)

end Binary64

end InputScript
