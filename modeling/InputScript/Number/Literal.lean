import InputScript.Number.Decimal
import InputScript.Text.Blank

/-!
# Number literals

Two notations are read. An integer has an optional sign and digits in base ten, or in the base
named by the leads `0x`, `0o` and `0b`; single underscores may separate digits. A decimal has an
optional fraction and exponent, or names an infinity or the value that is not a number. Both admit
blanks around the number and the decimal digits of any script.

`readNumber` tries the decimal notation first and the integer notation second, so that `010` is ten
and `0x10` is sixteen.
-/

namespace InputScript.Number

/-! ## Characters -/

/-- Replaces blanks and decimal digits outside ASCII by a space and an ASCII digit. -/
def plainChar (c : Char) : Char :=
  if c.toNat < 128 then c
  else if Text.isBlank c then ' '
  else match Text.decimalValue? c with
    | some d => Text.digitChar d
    | none => c

/-- The spaces that may stand around a literal once its characters are plain. -/
def isPlainSpace (c : Char) : Bool :=
  c == ' ' || (0x09 ≤ c.toNat && c.toNat ≤ 0x0D)

/-- The characters of a literal, made plain and without the spaces around it. -/
def literalChars (s : String) : List Char :=
  let cs := (s.toList.map plainChar).dropWhile isPlainSpace
  (cs.reverse.dropWhile isPlainSpace).reverse

/-- Takes an optional sign off; `true` is a minus. -/
def takeSign : List Char → Bool × List Char
  | '-' :: rest => (true, rest)
  | '+' :: rest => (false, rest)
  | cs => (false, cs)

/-! ## Integers -/

/-- The value of a digit in a base. -/
def digitIn? (base : Nat) (c : Char) : Option Nat :=
  (Text.positionalValue? c).filter (· < base)

/-- Digits with single underscores between them; `none` if anything else occurs or there is no
digit. -/
def digitRun? (base : Nat) : List Char → Option (List Nat)
  | [] => none
  | [c] => (digitIn? base c).map ([·])
  | c :: '_' :: rest => do
    let d ← digitIn? base c
    let ds ← digitRun? base rest
    return d :: ds
  | c :: rest => do
    let d ← digitIn? base c
    let ds ← digitRun? base rest
    return d :: ds

/-- The value of digits in a base. -/
def positional (base : Nat) (digits : List Nat) : Nat :=
  digits.foldl (fun n d => n * base + d) 0

/-- The base named by the start of a literal, and the rest: `0x`, `0o`, `0b` in either case, after
which one underscore may stand. -/
def takeBase : List Char → Option (Nat × List Char)
  | '0' :: c :: rest =>
    let base? :=
      match c.toLower with
      | 'x' => some 16
      | 'o' => some 8
      | 'b' => some 2
      | _ => none
    base?.map fun base =>
      match rest with
      | '_' :: digits => (base, digits)
      | digits => (base, digits)
  | _ => none

/-- The most digits a number in base ten may have. -/
def decimalDigitLimit : Nat := 4300

/-- The magnitude of a literal without its sign. A literal in base ten has no leading zero unless
it is zero, and no more digits than the limit. -/
def magnitude? (cs : List Char) : Option Nat :=
  match takeBase cs with
  | some (base, digits) => (digitRun? base digits).map (positional base)
  | none => do
    let digits ← digitRun? 10 cs
    let value := positional 10 digits
    if decimalDigitLimit < digits.length then none
    else if digits.head? = some 0 && value != 0 then none
    else some value

/-- Gives a magnitude its sign. -/
def signed (negative : Bool) (n : Nat) : Int :=
  if negative then -(n : Int) else n

/-- Reads an integer in any of the notations. -/
def readInt? (s : String) : Option Int :=
  let (negative, cs) := takeSign (literalChars s)
  (magnitude? cs).map (signed negative)

/-- Reads an integer in base eight. -/
def readOctal? (s : String) : Option Int :=
  let (negative, cs) := takeSign (literalChars s)
  ((digitRun? 8 cs).map (positional 8)).map (signed negative)

/-! ## Decimals -/

/-- Removes underscores that stand between digits; `none` if one stands elsewhere. -/
def dropUnderscores? : List Char → Option (List Char)
  | [] => some []
  | '_' :: _ => none
  | c :: '_' :: d :: rest =>
    if c.isDigit && d.isDigit then (dropUnderscores? (d :: rest)).map (c :: ·) else none
  | c :: rest => (dropUnderscores? rest).map (c :: ·)

/-- The number with a decimal significand and a power of ten. Far outside the range the answer
does not depend on the digits, so huge exponents cost nothing. -/
def ofDecimal (negative : Bool) (digits : Nat) (exponent : Int) : Binary64 :=
  if digits = 0 then .zero negative
  else
    let place := exponent + (Text.digitsOf 10 digits).length
    if 400 < place then .infinity negative
    else if place < -400 then .zero negative
    else .round (signed negative digits * tenPow exponent)

/-- Splits off the ASCII digits at the start. -/
def takeDigits (cs : List Char) : List Nat × List Char :=
  ((cs.takeWhile Char.isDigit).map fun c => c.toNat - 48, cs.dropWhile Char.isDigit)

/-- An exponent that fills the rest of a literal; nothing is an exponent of zero. -/
def readExponent? : List Char → Option Int
  | [] => some 0
  | c :: rest =>
    if c == 'e' || c == 'E' then
      let (negative, cs) := takeSign rest
      let (digits, rest') := takeDigits cs
      if digits.isEmpty || !rest'.isEmpty then none
      else some (signed negative (positional 10 digits))
    else none

/-- A decimal without sign: digits with an optional point among or around them, then an optional
exponent. -/
def readDecimal? (negative : Bool) (cs : List Char) : Option Binary64 := do
  let (whole, rest) := takeDigits cs
  let (fraction, rest) :=
    match rest with
    | '.' :: rest' => takeDigits rest'
    | rest => ([], rest)
  if whole.isEmpty && fraction.isEmpty then none
  let exponent ← readExponent? rest
  return ofDecimal negative (positional 10 (whole ++ fraction)) (exponent - fraction.length)

/-- A decimal with an optional sign, an infinity or the value that is not a number, in ASCII and with
nothing around it. -/
def plainFloat? (cs : List Char) : Option Binary64 :=
  let (negative, body) := takeSign cs
  let name := String.ofList (body.map Char.toLower)
  if name == "inf" || name == "infinity" then some (.infinity negative)
  else if name == "nan" then some .nan
  else readDecimal? negative body

/-- Reads a number in decimal notation, an infinity or the value that is not a number. -/
def readFloat? (s : String) : Option Binary64 :=
  (dropUnderscores? (literalChars s)).bind plainFloat?

/-! ## Numbers -/

/-- What a text says as a number. -/
inductive Reading
  | number (x : Binary64)
  | notANumber
  /-- An integer beyond the range of binary64. -/
  | tooLarge
deriving DecidableEq, Repr

/-- Reads a finite number, decimal notation first. -/
def readNumber (s : String) : Reading :=
  let text := Text.trim s
  match readFloat? text with
  | some x => if x.isFinite then .number x else .notANumber
  | none =>
    match readInt? text with
    | none => .notANumber
    | some n =>
      match Binary64.ofInt? n with
      | some x => .number x
      | none => .tooLarge

end InputScript.Number
