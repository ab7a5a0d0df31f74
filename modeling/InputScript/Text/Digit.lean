/-!
# Digits

Numbers may be written with the decimal digits of any script. Each such set of digits is a run of
ten code points that starts at its zero, so the table of zeros determines the value of every
decimal digit. A few further characters (superscripts, circled digits) are digits without being
usable in a number; they only decide how a text is classified.
-/

namespace InputScript.Text

/-- The code point of the zero of every set of decimal digits. -/
def decimalZeros : List Nat :=
  [0x30, 0x660, 0x6F0, 0x7C0, 0x966, 0x9E6, 0xA66, 0xAE6, 0xB66, 0xBE6, 0xC66, 0xCE6, 0xD66,
   0xDE6, 0xE50, 0xED0, 0xF20, 0x1040, 0x1090, 0x17E0, 0x1810, 0x1946, 0x19D0, 0x1A80, 0x1A90,
   0x1B50, 0x1BB0, 0x1C40, 0x1C50, 0xA620, 0xA8D0, 0xA900, 0xA9D0, 0xA9F0, 0xAA50, 0xABF0,
   0xFF10, 0x104A0, 0x10D30, 0x11066, 0x110F0, 0x11136, 0x111D0, 0x112F0, 0x11450, 0x114D0,
   0x11650, 0x116C0, 0x11730, 0x118E0, 0x11950, 0x11C50, 0x11D50, 0x11DA0, 0x16A60, 0x16AC0,
   0x16B50, 0x1D7CE, 0x1D7D8, 0x1D7E2, 0x1D7EC, 0x1D7F6, 0x1E140, 0x1E2F0, 0x1E950, 0x1FBF0]

/-- The value of a decimal digit of any script. -/
def decimalValue? (c : Char) : Option Nat :=
  (decimalZeros.find? fun first => first ≤ c.toNat && c.toNat < first + 10).map (c.toNat - ·)

/-- Runs of characters that are digits but not decimal digits, as first and last code point. -/
def ornamentalDigits : List (Nat × Nat) :=
  [(0xB2, 0xB3), (0xB9, 0xB9), (0x1369, 0x1371), (0x19DA, 0x19DA), (0x2070, 0x2070),
   (0x2074, 0x2079), (0x2080, 0x2089), (0x2460, 0x2468), (0x2474, 0x247C), (0x2488, 0x2490),
   (0x24EA, 0x24EA), (0x24F5, 0x24FD), (0x24FF, 0x24FF), (0x2776, 0x277E), (0x2780, 0x2788),
   (0x278A, 0x2792), (0x10A40, 0x10A43), (0x10E60, 0x10E68), (0x11052, 0x1105A),
   (0x1F100, 0x1F10A)]

/-- Whether a character is a digit, decimal or ornamental. -/
def isDigit (c : Char) : Bool :=
  (decimalValue? c).isSome
    || ornamentalDigits.any fun (first, last) => first ≤ c.toNat && c.toNat ≤ last

/-- The value of an ASCII digit or letter in bases up to 36, in either case. -/
def positionalValue? (c : Char) : Option Nat :=
  let n := c.toNat
  if 0x30 ≤ n && n ≤ 0x39 then some (n - 0x30)
  else if 0x61 ≤ n && n ≤ 0x7A then some (n - 0x61 + 10)
  else if 0x41 ≤ n && n ≤ 0x5A then some (n - 0x41 + 10)
  else none

/-- The ASCII character of a digit value: `0` to `9`, then lower case letters. -/
def digitChar (d : Nat) : Char :=
  if d < 10 then Char.ofNat (0x30 + d) else Char.ofNat (0x61 + (d - 10))

/-- The digits of `n` in a base of at least two, most significant first; `n = 0` has one digit. -/
def digitsOf (base : Nat) (n : Nat) : List Nat :=
  if _h : 2 ≤ base ∧ base ≤ n then digitsOf base (n / base) ++ [n % base] else [n]
termination_by n
decreasing_by exact Nat.div_lt_self (by omega) (by omega)

/-- Decimal text of a natural number. -/
def decimal (n : Nat) : String :=
  String.ofList ((digitsOf 10 n).map digitChar)

/-- Decimal text of an integer. -/
def decimalInt : Int → String
  | .ofNat n => decimal n
  | .negSucc n => "-" ++ decimal (n + 1)

/-- Upper case hexadecimal text, padded with zeros to a least width. -/
def hexadecimal (width n : Nat) : String :=
  let digits := (digitsOf 16 n).map fun d => (digitChar d).toUpper
  String.ofList (List.replicate (width - digits.length) '0' ++ digits)

end InputScript.Text
