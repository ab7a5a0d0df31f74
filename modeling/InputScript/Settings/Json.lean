import InputScript.Settings.Value

/-!
# JSON

A reader for JSON texts. Beyond the standard it admits the numbers `NaN`, `Infinity` and `-Infinity`;
of entries with the same key the last one counts. Inside strings control characters have to be
escaped.
-/

namespace InputScript.Json

/-- Why a text is not read. -/
inductive Fault
  | malformed
  /-- An integer with more digits than are read. -/
  | tooLong
deriving DecidableEq, Repr

def isSpace (c : Char) : Bool := c == ' ' || c == '\t' || c == '\n' || c == '\r'

def skipSpaces (cs : List Char) : List Char := cs.dropWhile isSpace

/-- Four hexadecimal digits. -/
def readHex? (cs : List Char) : Option (Nat × List Char) := do
  let digits ← (cs.take 4).mapM (Number.digitIn? 16)
  if digits.length = 4 then some (Number.positional 16 digits, cs.drop 4) else none

/-- The character of a letter after a backslash. -/
def escape? : Char → Option Char
  | '"' => some '"'
  | '\\' => some '\\'
  | '/' => some '/'
  | 'b' => some (Char.ofNat 8)
  | 'f' => some (Char.ofNat 12)
  | 'n' => some '\n'
  | 'r' => some '\r'
  | 't' => some '\t'
  | _ => none

/-- The code point of two surrogates. -/
def joinSurrogates (high low : Nat) : Nat := 0x10000 + (high - 0xD800) * 0x400 + (low - 0xDC00)

/-- Reads an escape after its backslash. A surrogate without its partner stays one. -/
def readEscape : List Char → Except Fault (Nat × List Char)
  | 'u' :: rest =>
    match readHex? rest with
    | none => .error .malformed
    | some (n, tail) =>
      if 0xD800 ≤ n && n < 0xDC00 then
        match tail with
        | '\\' :: 'u' :: more =>
          match readHex? more with
          | some (m, after) =>
            if 0xDC00 ≤ m && m < 0xE000 then .ok (joinSurrogates n m, after) else .ok (n, tail)
          | none => .error .malformed
        | _ => .ok (n, tail)
      else .ok (n, tail)
  | c :: rest =>
    match escape? c with
    | some d => .ok (d.toNat, rest)
    | none => .error .malformed
  | [] => .error .malformed

/-- Reads a string after its opening quote, the code points read so far coming last first; the bound is
at least the length of the text. -/
def readString : Nat → List Nat → List Char → Except Fault (Value × List Char)
  | 0, _, _ => .error .malformed
  | _ + 1, _, [] => .error .malformed
  | bound + 1, read, c :: rest =>
    if c = '"' then .ok (.ofCodes read.reverse, rest)
    else if c = '\\' then
      match readEscape rest with
      | .ok (n, tail) => readString bound (n :: read) tail
      | .error e => .error e
    else if c.toNat < 0x20 then .error .malformed
    else readString bound (c.toNat :: read) rest

/-- Reads a number. -/
def readNumber (cs : List Char) : Except Fault (Value × List Char) :=
  let (negative, body) : Bool × List Char :=
    match cs with
    | '-' :: rest => (true, rest)
    | _ => (false, cs)
  let whole :=
    match body with
    | '0' :: _ => ['0']
    | _ => body.takeWhile Char.isDigit
  let rest := body.drop whole.length
  let fraction :=
    match rest with
    | '.' :: more => more.takeWhile Char.isDigit
    | _ => []
  let afterFraction := if fraction.isEmpty then rest else rest.drop (fraction.length + 1)
  let (exponent, tail) : Option Int × List Char :=
    match afterFraction with
    | c :: more =>
      if c = 'e' || c = 'E' then
        let (minus, digits) := Number.takeSign more
        match digits.takeWhile Char.isDigit with
        | [] => (none, afterFraction)
        | run =>
          (some (Number.signed minus (Number.positional 10 (run.filterMap (Number.digitIn? 10)))),
            digits.drop run.length)
      else (none, afterFraction)
    | [] => (none, [])
  let value (digits : List Char) : Nat := Number.positional 10 (digits.filterMap (Number.digitIn? 10))
  if whole.isEmpty then .error .malformed
  else if fraction.isEmpty && exponent.isNone then
    if Number.decimalDigitLimit < whole.length then .error .tooLong
    else .ok (.int (Number.signed negative (value whole)), tail)
  else
    .ok (.float (Number.ofDecimal negative (value (whole ++ fraction))
      (exponent.getD 0 - fraction.length)), tail)

/-- The names of values. -/
def names : List (String × Value) :=
  [("null", .null), ("true", .bool true), ("false", .bool false), ("NaN", .float .nan),
   ("Infinity", .float (.infinity false)), ("-Infinity", .float (.infinity true))]

mutual

/-- Reads a value at its first character. -/
def readValue : Nat → List Char → Except Fault (Value × List Char)
  | 0, _ => .error .malformed
  | fuel + 1, cs =>
    match cs with
    | '"' :: rest => readString (rest.length + 1) [] rest
    | '[' :: rest =>
      match skipSpaces rest with
      | ']' :: tail => .ok (.list [], tail)
      | body => do
        let (items, tail) ← readItems fuel body
        return (.list items, tail)
    | '\x7b' :: rest =>
      match skipSpaces rest with
      | '\x7d' :: tail => .ok (.mapping [], tail)
      | body => do
        let (entries, tail) ← readEntries fuel body
        return (.ofPairs entries, tail)
    | _ =>
      match names.find? fun (name, _) => name.toList.isPrefixOf cs with
      | some (name, value) => .ok (value, cs.drop name.length)
      | none => readNumber cs

/-- Reads the items of a list from the first one on. -/
def readItems : Nat → List Char → Except Fault (List Value × List Char)
  | 0, _ => .error .malformed
  | fuel + 1, cs => do
    let (item, rest) ← readValue fuel cs
    match skipSpaces rest with
    | ',' :: more =>
      let (items, tail) ← readItems fuel (skipSpaces more)
      return (item :: items, tail)
    | ']' :: tail => return ([item], tail)
    | _ => throw .malformed

/-- Reads the entries of a mapping from the first one on. -/
def readEntries : Nat → List Char → Except Fault (List (Value × Value) × List Char)
  | 0, _ => .error .malformed
  | fuel + 1, cs => do
    match cs with
    | '"' :: rest =>
      let (key, rest) ← readString (rest.length + 1) [] rest
      match skipSpaces rest with
      | ':' :: rest =>
        let (value, rest) ← readValue fuel (skipSpaces rest)
        match skipSpaces rest with
        | ',' :: more =>
          let (entries, tail) ← readEntries fuel (skipSpaces more)
          return ((key, value) :: entries, tail)
        | '\x7d' :: tail => return ([(key, value)], tail)
        | _ => throw .malformed
      | _ => throw .malformed
    | _ => throw .malformed

end

/-- Reads a whole text. -/
def parse (s : String) : Except Fault Value := do
  let cs := s.toList
  let (value, rest) ← readValue (cs.length + 1) (skipSpaces cs)
  if (skipSpaces rest).isEmpty then return value else throw .malformed

end InputScript.Json
