import InputScript.Settings.Value

/-!
# Plain scalars

What an unquoted scalar means: a truth value, nothing, an integer in one of five notations, a decimal
with a point, a date, or else a text.
-/

namespace InputScript.Yaml

/-- Why the value of a scalar does not exist. -/
inductive ScalarFault
  /-- A scalar of a kind that has no values. -/
  | noValue
  /-- The notation fits but spells no number or date. -/
  | badNumber
deriving DecidableEq, Repr

def truthNames : List (String × Bool) :=
  [("yes", true), ("Yes", true), ("YES", true), ("no", false), ("No", false), ("NO", false),
   ("true", true), ("True", true), ("TRUE", true), ("false", false), ("False", false),
   ("FALSE", false), ("on", true), ("On", true), ("ON", true), ("off", false), ("Off", false),
   ("OFF", false)]

def nullNames : List String := ["", "~", "null", "Null", "NULL"]

/-- Whether all characters are digits of a base or underscores, and there is one at least. -/
def isRun (base : Nat) (cs : List Char) : Bool :=
  !cs.isEmpty && cs.all fun c => c == '_' || (Number.digitIn? base c).isSome

/-- Whether a text is a digit followed by digits and underscores. -/
def isCount (cs : List Char) : Bool := isRun 10 cs && cs.head?.any Char.isDigit

/-- The parts of a text between colons. -/
def colonParts : List Char → List (List Char)
  | [] => [[]]
  | c :: rest =>
    if c = ':' then [] :: colonParts rest
    else
      match colonParts rest with
      | part :: more => (c :: part) :: more
      | [] => [[c]]

/-- Whether a text is one of the later parts of a number to base sixty. -/
def isSixtieth : List Char → Bool
  | [c] => c.isDigit
  | [c, d] => '0' ≤ c && c ≤ '5' && d.isDigit
  | _ => false

/-- The value of digits, underscores left out. -/
def valueOf (base : Nat) (cs : List Char) : Nat :=
  Number.positional base (cs.filterMap (Number.digitIn? base))

/-- Reads an integer without its sign; the inner error says that there are no digits or too many. -/
def magnitude? (cs : List Char) : Option (Except ScalarFault Nat) :=
  let digits (base : Nat) (run : List Char) : Except ScalarFault Nat :=
    if run.all (· == '_') then .error .badNumber else .ok (valueOf base run)
  let counted (run : List Char) : Bool := (run.filter (· != '_')).length ≤ Number.decimalDigitLimit
  match cs with
  | '0' :: 'b' :: rest => if isRun 2 rest then some (digits 2 rest) else none
  | '0' :: 'x' :: rest => if isRun 16 rest then some (digits 16 rest) else none
  | ['0'] => some (.ok 0)
  | '0' :: rest => if isRun 8 rest then some (.ok (valueOf 8 rest)) else none
  | _ =>
    match colonParts cs with
    | first :: rest =>
      if isCount first && rest.all isSixtieth then
        if counted first then
          some (.ok (rest.foldl (fun n part => n * 60 + valueOf 10 part) (valueOf 10 first)))
        else some (.error .badNumber)
      else none
    | [] => none

/-- Reads an integer. -/
def integer? (cs : List Char) : Option (Except ScalarFault Int) :=
  let (negative, body) := Number.takeSign cs
  (magnitude? body).map fun n => n.map (Number.signed negative)

/-- An exponent with its sign, which has to be there, to the end of the text. -/
def exponent? : List Char → Option Int
  | [] => some 0
  | c :: s :: digits =>
    if (c = 'e' || c = 'E') && (s = '+' || s = '-') && !digits.isEmpty && digits.all Char.isDigit then
      some (Number.signed (s = '-') (valueOf 10 digits))
    else none
  | _ => none

/-- Digits and underscores at the start of a text, and the rest. -/
def takeRun (cs : List Char) : List Char × List Char :=
  let run := cs.takeWhile fun c => c.isDigit || c == '_'
  (run, cs.drop run.length)

/-- The number with the given digits before and after its point. -/
def pointed (negative : Bool) (whole fraction : List Char) (exponent : Int) : Binary64 :=
  let digits := (whole ++ fraction).filter (· != '_')
  let places := (fraction.filter (· != '_')).length
  Number.ofDecimal negative (valueOf 10 digits) (exponent - places)

/-- The sum of numbers times the powers of sixty, the lowest first, each step rounded. -/
def sixtieths (parts : List Binary64) : Binary64 :=
  (parts.foldl (fun (sum, base) part => (sum.add (part.mul base), base.mul (.ofNat 60)))
    (Binary64.ofNat 0, Binary64.ofNat 1)).1

/-- Reads a decimal. -/
def decimal? (cs : List Char) : Option Binary64 :=
  let (negative, body) := Number.takeSign cs
  let name := String.ofList body
  if name == ".inf" || name == ".Inf" || name == ".INF" then some (.infinity negative)
  else if cs == body && (name == ".nan" || name == ".NaN" || name == ".NAN") then some .nan
  else
    let (whole, rest) := takeRun body
    match rest with
    | '.' :: after =>
      let (fraction, tail) := takeRun after
      if whole.isEmpty then
        if cs == body && fraction.head?.any Char.isDigit then
          (exponent? tail).map (pointed false [] fraction)
        else none
      else if isCount whole then (exponent? tail).map (pointed negative whole fraction)
      else none
    | ':' :: _ =>
      let pointless := body.takeWhile (· != '.')
      match colonParts pointless, body.drop pointless.length with
      | first :: parts, '.' :: fraction =>
        if isCount first && parts.all isSixtieth && fraction.all (fun c => c.isDigit || c == '_') then
          let whole := (first :: parts).reverse
          let last := pointed false (whole.headD []) fraction 0
          let others := (whole.drop 1).map fun part => Number.ofDecimal false (valueOf 10 part) 0
          let sum := sixtieths (last :: others)
          some (if negative then sum.neg else sum)
        else none
      | _, _ => none
    | _ => none

/-- The number of days in a month. -/
def daysIn (year month : Nat) : Nat :=
  if month = 2 then
    if year % 4 = 0 && (year % 100 ≠ 0 || year % 400 = 0) then 29 else 28
  else if month = 4 || month = 6 || month = 9 || month = 11 then 30
  else 31

/-- Whether there is a day. -/
def isDay (year month day : Nat) : Bool :=
  1 ≤ year && 1 ≤ month && month ≤ 12 && 1 ≤ day && day ≤ daysIn year month

/-- Takes a number of so many digits. -/
def takeNumber? (least most : Nat) (cs : List Char) : Option (Nat × List Char) :=
  let run := (cs.take most).takeWhile Char.isDigit
  if least ≤ run.length then some (valueOf 10 run, cs.drop run.length) else none

/-- Takes a sign. -/
def takeChar? (c : Char) : List Char → Option (List Char)
  | d :: rest => if c = d then some rest else none
  | [] => none

def isBlank (c : Char) : Bool := c == ' ' || c == '\t'

/-- Reads a date; the answer says whether there is such a day. -/
def date? (cs : List Char) : Option Bool := do
  let (year, cs) ← takeNumber? 4 4 cs
  let (month, cs) ← takeNumber? 2 2 (← takeChar? '-' cs)
  let (day, cs) ← takeNumber? 2 2 (← takeChar? '-' cs)
  if cs.isEmpty then some (isDay year month day) else none

/-- Reads a time zone, which may be missing; the answer says whether it is less than a day away. -/
def zone? (cs : List Char) : Option Bool :=
  match cs, cs.dropWhile isBlank with
  | [], _ => some true
  | _, ['Z'] => some true
  | _, sign :: rest =>
    if sign = '+' || sign = '-' then do
      let (hours, rest) ← takeNumber? 1 2 rest
      let (minutes, rest) ← match rest with
        | ':' :: rest => takeNumber? 2 2 rest
        | _ => some (0, rest)
      if rest.isEmpty then some (hours * 60 + minutes < 24 * 60) else none
    else none
  | _, [] => none

/-- Reads a date with a time; the answer says whether there is such a moment. -/
def timestamp? (cs : List Char) : Option Bool := do
  let (year, cs) ← takeNumber? 4 4 cs
  let (month, cs) ← takeNumber? 1 2 (← takeChar? '-' cs)
  let (day, cs) ← takeNumber? 1 2 (← takeChar? '-' cs)
  let cs ← match cs with
    | c :: rest =>
      if c = 'T' || c = 't' then some rest
      else if isBlank c then some (rest.dropWhile isBlank)
      else none
    | [] => none
  let (hour, cs) ← takeNumber? 1 2 cs
  let (minute, cs) ← takeNumber? 2 2 (← takeChar? ':' cs)
  let (second, cs) ← takeNumber? 2 2 (← takeChar? ':' cs)
  let cs := match cs with
    | '.' :: rest => rest.dropWhile Char.isDigit
    | _ => cs
  let isZone ← zone? cs
  return isZone && isDay year month day && hour < 24 && minute < 60 && second < 60

/-- The scalar that takes the entries of another mapping into one when it is a key. -/
def mergeSign : String := "<<"

/-- The scalar that stands for the value of a mapping. -/
def defaultSign : String := "="

/-- The value of a plain scalar. -/
def resolve (s : String) : Except ScalarFault Value :=
  let cs := s.toList
  if nullNames.contains s then .ok .null
  else if s == mergeSign || s == defaultSign then .error .noValue
  else
    match truthNames.lookup s, integer? cs, decimal? cs, date? cs <|> timestamp? cs with
    | some b, _, _, _ => .ok (.bool b)
    | _, some (.ok n), _, _ => .ok (.int n)
    | _, some (.error e), _, _ => .error e
    | _, _, some x, _ => .ok (.float x)
    | _, _, _, some true => .ok .moment
    | _, _, _, some false => .error .badNumber
    | _, _, _, _ => .ok (.text s)

end InputScript.Yaml
