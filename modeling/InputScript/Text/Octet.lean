import InputScript.Text.Utf8

/-!
# Octets

Files, pipes and the shell carry bytes, whatever they spell. Seen as characters below 256, one for
each byte, they can be compared with letters directly.
-/

namespace InputScript

/-- A byte string seen as characters below 256, one for each byte. -/
abbrev Octets := List Char

namespace Octets

def ofBytes (bytes : List UInt8) : Octets := bytes.map fun b => Char.ofNat b.toNat

def toBytes (cs : Octets) : List UInt8 := cs.map fun c => c.toNat.toUInt8

/-- The octets of a text in UTF-8. -/
def ofText (s : String) : Octets := ofBytes (Text.encodeUtf8 s.toList)

/-- The pieces of a byte string between occurrences of a separator. -/
def splitOn (separator : Char) : Octets → List Octets
  | [] => [[]]
  | c :: rest =>
    if c = separator then [] :: splitOn separator rest
    else
      match splitOn separator rest with
      | piece :: more => (c :: piece) :: more
      | [] => [[c]]

/-- The order of byte strings by their bytes. -/
def le : Octets → Octets → Bool
  | [], _ => true
  | _ :: _, [] => false
  | a :: as, b :: bs => a.toNat < b.toNat || (a == b && le as bs)

/-- Letters and the underscore. -/
def startsName (c : Char) : Bool := c.isAlpha || c == '_'

/-- Letters, digits and the underscore. -/
def inName (c : Char) : Bool := startsName c || c.isDigit

/-- Whether a byte string can be the name of a variable. -/
def isName : Octets → Bool
  | [] => false
  | c :: rest => startsName c && rest.all inName

end Octets

end InputScript
