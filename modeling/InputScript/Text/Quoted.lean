import InputScript.Text.Digit

/-!
# Quoted text

File names in system error messages are shown in quotes: single quotes unless the text holds a
single quote and no double quote, with a backslash before the delimiter and before backslashes, and
with escapes for characters that cannot be shown.
-/

namespace InputScript.Text

/-- Runs of characters outside ASCII that cannot be shown: controls, separators other than the
space, format characters and private characters. -/
def unshownRuns : List (Nat × Nat) :=
  [(0x80, 0xA0), (0xAD, 0xAD), (0x600, 0x605), (0x61C, 0x61C), (0x6DD, 0x6DD), (0x70F, 0x70F),
   (0x890, 0x891), (0x8E2, 0x8E2), (0x1680, 0x1680), (0x180E, 0x180E), (0x2000, 0x200F),
   (0x2028, 0x202F), (0x205F, 0x2064), (0x2066, 0x206F), (0x3000, 0x3000), (0xD800, 0xF8FF),
   (0xFEFF, 0xFEFF), (0xFFF9, 0xFFFB), (0x110BD, 0x110BD), (0x110CD, 0x110CD),
   (0x13430, 0x13438), (0x1BCA0, 0x1BCA3), (0x1D173, 0x1D17A), (0xE0001, 0xE0001),
   (0xE0020, 0xE007F), (0xF0000, 0xFFFFD), (0x100000, 0x10FFFD)]

/-- Whether a character is shown as it is. -/
def isShown (c : Char) : Bool :=
  let n := c.toNat
  if n < 0x80 then 0x20 ≤ n && n < 0x7F
  else !unshownRuns.any fun (first, last) => first ≤ n && n ≤ last

/-- Lower case hexadecimal digits of a fixed width. -/
def escapeDigits (width n : Nat) : List Char :=
  let digits := (digitsOf 16 n).map digitChar
  List.replicate (width - digits.length) '0' ++ digits

/-- One character inside quotes. -/
def quotedChar (delimiter c : Char) : List Char :=
  if c == delimiter || c == '\\' then ['\\', c]
  else if c == '\t' then ['\\', 't']
  else if c == '\n' then ['\\', 'n']
  else if c == '\r' then ['\\', 'r']
  else if isShown c then [c]
  else if c.toNat < 0x100 then '\\' :: 'x' :: escapeDigits 2 c.toNat
  else if c.toNat < 0x10000 then '\\' :: 'u' :: escapeDigits 4 c.toNat
  else '\\' :: 'U' :: escapeDigits 8 c.toNat

/-- A text in quotes. -/
def quoted (s : String) : String :=
  let cs := s.toList
  let delimiter := if cs.contains '\'' && !cs.contains '"' then '"' else '\''
  String.ofList (delimiter :: cs.flatMap (quotedChar delimiter) ++ [delimiter])

end InputScript.Text
