import InputScript.Number.Binary64
import InputScript.Text.Digit

/-!
# Decimal text of numbers

A number is shown in three ways: by the fewest digits that read back as the same number, by six
significant digits, or with a fixed number of places. All three are exact: they start from the
rational value and round it once.

* `shortest` takes, for one, two, … seventeen digits, the neighbours of the value on that decimal
  grid and stops at the first that rounds back to the value.
* `significant` rounds to a given number of digits, a half going to the even digit.
* `fixed` rounds to a given number of places in the same way.
-/

namespace InputScript.Number

open Binary64

/-- A positive decimal: its digits, most significant first, and the place of the first digit
(`0` for the ones, `-1` for the tenths). -/
structure Scientific where
  digits : List Nat
  place : Int
deriving DecidableEq, Repr

/-- The power of ten with a given exponent. -/
def tenPow : Int → Rat
  | .ofNat k => (Nat.pow 10 k : Rat)
  | .negSucc k => mkRat 1 (Nat.pow 10 (k + 1))

/-- The place of the leading digit of a positive rational. -/
def leadingPlace (q : Rat) : Int :=
  let guess : Int := ((Text.digitsOf 10 q.num.natAbs).length : Int) - (Text.digitsOf 10 q.den).length
  if tenPow guess ≤ q then guess else guess - 1

/-- A decimal on the grid of `count` digits, from its integer multiple of the grid unit; a carry
into a new digit moves the place. -/
def Scientific.ofGrid (count : Nat) (place : Int) (n : Nat) : Scientific :=
  let digits := Text.digitsOf 10 n
  { digits, place := place + (digits.length : Int) - count }

/-- The value of a grid multiple. -/
def gridValue (count : Nat) (place : Int) (n : Nat) : Rat :=
  (n : Rat) * tenPow (place - count + 1)

/-- Rounds a positive rational to `count` significant digits. -/
def significant (count : Nat) (q : Rat) : Scientific :=
  let place := leadingPlace q
  .ofGrid count place (roundHalfEven (q * tenPow (count - 1 - place))).toNat

/-- The decimals of `count` digits next to a positive rational that round back to it, the nearer
one first. -/
def readBack (count : Nat) (q : Rat) : List Nat :=
  let place := leadingPlace q
  let scaled := q * tenPow (count - 1 - place)
  let below := scaled.floor.toNat
  let middle := (roundHalfEven scaled).toNat
  let order := if middle = below then [below, below + 1] else [below + 1, below]
  order.filter fun n => Binary64.round (gridValue count place n) = .finite q

/-- The fewest digits, at most seventeen, that read back as a positive number. -/
def shortest (q : Rat) : Scientific :=
  let rec search (count left : Nat) : Scientific :=
    match left with
    | 0 => significant 17 q
    | left + 1 =>
      match readBack count q with
      | n :: _ => .ofGrid count (leadingPlace q) n
      | [] => search (count + 1) left
  search 1 17

/-- Drops zeros at the end. -/
def dropTrailingZeros (digits : List Nat) : List Nat :=
  (digits.reverse.dropWhile (· == 0)).reverse

/-- Characters of digits. -/
def digitText (digits : List Nat) : String :=
  String.ofList (digits.map Text.digitChar)

/-- An exponent with its sign and at least two digits. -/
def exponentText (e : Int) : String :=
  let digits := Text.decimal e.natAbs
  (if e < 0 then "-" else "+") ++ (if digits.length < 2 then "0" ++ digits else digits)

/-- Positional text of a decimal without trailing zeros; `point` is what is appended to a whole
number. -/
def Scientific.positional (d : Scientific) (point : String) : String :=
  let digits := dropTrailingZeros d.digits
  if d.place < 0 then
    "0." ++ String.ofList (List.replicate (d.place.natAbs - 1) '0') ++ digitText digits
  else
    let whole := d.place.toNat + 1
    let front := digits.take whole
    let padded := front ++ List.replicate (whole - front.length) 0
    match digits.drop whole with
    | [] => digitText padded ++ point
    | fraction => digitText padded ++ "." ++ digitText fraction

/-- Text of a decimal with an exponent. -/
def Scientific.exponential (d : Scientific) : String :=
  let mantissa :=
    match dropTrailingZeros d.digits with
    | [] => "0"
    | [first] => digitText [first]
    | first :: fraction => digitText [first] ++ "." ++ digitText fraction
  mantissa ++ "e" ++ exponentText d.place

/-- How a style of decimal text is laid out. -/
structure Layout where
  /-- The digits of a positive number. -/
  digits : Rat → Scientific
  /-- The first place that is written with an exponent. -/
  exponentFrom : Int
  /-- What follows a whole number. -/
  wholeSuffix : String

/-- Numbers as they are reported: the fewest digits, always with a point, and an exponent from
ten to the sixteenth. -/
def Layout.reported : Layout := ⟨shortest, 16, ".0"⟩

/-- Numbers in range messages: six significant digits, an exponent from a million. -/
def Layout.brief : Layout := ⟨significant 6, 6, ""⟩

/-- The text of a number in a layout. Both layouts write an exponent below a ten thousandth. -/
def Layout.render (layout : Layout) : Binary64 → String
  | .nan => "nan"
  | .infinity negative => if negative then "-inf" else "inf"
  | .negativeZero => "-0" ++ layout.wholeSuffix
  | .finite q =>
    if q = 0 then "0" ++ layout.wholeSuffix
    else
      let d := layout.digits q.abs
      let text :=
        if d.place < -4 || layout.exponentFrom ≤ d.place then d.exponential
        else d.positional layout.wholeSuffix
      if q < 0 then "-" ++ text else text

/-- The text of a number with a fixed count of places, a half going to the even digit. -/
def fixed (places : Nat) : Binary64 → String
  | .nan => "nan"
  | .infinity negative => if negative then "-inf" else "inf"
  | x =>
    let q := x.toRat?.getD 0
    let n := (roundHalfEven (q.abs * (Nat.pow 10 places : Rat))).toNat
    let whole := Text.decimal (n / Nat.pow 10 places)
    let fraction := Text.decimal (n % Nat.pow 10 places)
    let sign := if x.isNegative then "-" else ""
    sign ++ whole ++ "." ++ String.ofList (List.replicate (places - fraction.length) '0') ++ fraction

end InputScript.Number
