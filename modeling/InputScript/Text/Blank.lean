/-!
# Blanks

Trimming a line and cutting off its first piece go by the Unicode notion of white space, which is
wider than the space, tab, carriage return and line feed that separate the words of a command. The
table below lists every white space character; `trim` and `firstPiece` are the two operations the
rest of the library builds on it.
-/

namespace InputScript.Text

/-- The white space characters outside the ranges of `isBlank`. -/
def isolatedBlanks : List Nat :=
  [0x20, 0x85, 0xA0, 0x1680, 0x2028, 0x2029, 0x202F, 0x205F, 0x3000]

/-- Unicode white space: the line controls, the four separators `U+001C` to `U+001F`, and the
space characters. The zero width space and the byte order mark are not blanks. -/
def isBlank (c : Char) : Bool :=
  let n := c.toNat
  (0x09 ≤ n && n ≤ 0x0D) || (0x1C ≤ n && n ≤ 0x1F) || (0x2000 ≤ n && n ≤ 0x200A)
    || isolatedBlanks.contains n

/-- Drops the blanks at the end of a text. -/
def trimEndChars (cs : List Char) : List Char :=
  (cs.reverse.dropWhile isBlank).reverse

/-- Drops the blanks at both ends of a text. -/
def trimChars (cs : List Char) : List Char :=
  trimEndChars (cs.dropWhile isBlank)

/-- `trimChars` on a string. -/
def trim (s : String) : String :=
  String.ofList (trimChars s.toList)

/-- `trimEndChars` on a string. -/
def trimEnd (s : String) : String :=
  String.ofList (trimEndChars s.toList)

/-- The first run of characters that are not blank, or `none` in a text of blanks only. -/
def firstPiece (s : String) : Option String :=
  match (s.toList.dropWhile isBlank).takeWhile (fun c => !isBlank c) with
  | [] => none
  | piece => some (String.ofList piece)

end InputScript.Text
