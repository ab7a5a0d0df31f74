/-!
# Letter case

Key and axis names are matched without regard to case. The names of the tables are ASCII, so only
characters whose upper case form is ASCII matter: the ASCII letters themselves and the few letters
and ligatures below. Every other character is left alone and matches nothing.
-/

namespace InputScript.Text

/-- The characters outside ASCII whose upper case form is ASCII, with that form. -/
def asciiUppercase : List (Nat × List Char) :=
  [(0xDF, ['S', 'S']), (0x131, ['I']), (0x17F, ['S']), (0xFB00, ['F', 'F']),
   (0xFB01, ['F', 'I']), (0xFB02, ['F', 'L']), (0xFB03, ['F', 'F', 'I']),
   (0xFB04, ['F', 'F', 'L']), (0xFB05, ['S', 'T']), (0xFB06, ['S', 'T'])]

/-- The upper case form of one character, which may be several. -/
def upperChar (c : Char) : List Char :=
  match asciiUppercase.lookup c.toNat with
  | some upper => upper
  | none => [c.toUpper]

/-- The upper case form under which names are looked up. -/
def upper (s : String) : String :=
  String.ofList (s.toList.flatMap upperChar)

/-- The lower case form under which settings are compared; the words compared are ASCII. -/
def lower (s : String) : String :=
  s.map Char.toLower

end InputScript.Text
