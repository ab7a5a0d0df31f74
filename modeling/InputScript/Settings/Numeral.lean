import InputScript.Number.Literal

/-!
# Numbers spelled in settings

A setting that is a number may be spelled by a text. The notation is that of a JSON number in ASCII with
some liberties. Around it blanks are dropped. An integer may have a plus, zeros in front and a fraction of
zeros at its end. Single underscores may stand anywhere but at the ends.

The zeros in front are dropped together with underscores among them and before the sign is looked at, so a
minus may follow them: `0-1` spells minus one. A number whose sign stands first has no zeros after it.
-/

namespace InputScript.Numeral

/-- Why a text spells no integer. -/
inductive Fault
  | malformed
  /-- There are more digits than are read. -/
  | tooLong
deriving DecidableEq, Repr

/-- The blanks around a number, which are fewer than those around a line. -/
def isBlank (c : Char) : Bool := Text.isBlank c && !(0x1C ≤ c.toNat && c.toNat ≤ 0x1F)

/-- The characters of a text without the blanks around them. -/
def trim (s : String) : List Char :=
  ((s.toList.dropWhile isBlank).reverse.dropWhile isBlank).reverse

/-- Whether two underscores stand side by side. -/
def hasDoubled : List Char → Bool
  | '_' :: '_' :: _ => true
  | _ :: rest => hasDoubled rest
  | [] => false

/-- Underscores dropped; `none` if there are none, or one stands at an end or beside another. -/
def dropUnderscores? (cs : List Char) : Option (List Char) :=
  if !cs.contains '_' || cs.head? = some '_' || cs.getLast? = some '_' || hasDoubled cs then none
  else some (cs.filter (· != '_'))

/-- A plus in front dropped; no minus may follow it. -/
def dropPlus? : List Char → Option (List Char)
  | '+' :: '-' :: _ => none
  | '+' :: rest => some rest
  | cs => some cs

/-- Whether a number without zeros in front may start with a character. -/
def startsNumber (c : Char) : Bool := ('1' ≤ c && c ≤ '9') || c == '-'

/-- Zeros in front dropped, and underscores among them. If nothing or a point comes next, the last of them
stays. -/
def dropZeros? : List Char → Option (List Char)
  | [] => none
  | c :: rest =>
    if startsNumber c then some (c :: rest)
    else if c != '0' then none
    else
      let lead := rest.takeWhile fun d => d == '0' || d == '_'
      match rest.drop lead.length with
      | [] => some [lead.getLastD c]
      | d :: tail =>
        if startsNumber d then some (d :: tail)
        else if d == '.' then some (lead.getLastD c :: d :: tail)
        else none

/-- A fraction of zeros at the end dropped. -/
def dropFraction (cs : List Char) : List Char :=
  let whole := cs.takeWhile (· != '.')
  let zeros := cs.drop (whole.length + 1)
  if !zeros.isEmpty && zeros.all (· == '0') then whole else cs

/-- An integer as JSON has it: an optional minus, and digits of which the first is zero only if it is the
only one. -/
def plainInteger (cs : List Char) : Except Fault Int :=
  let negative := cs.head? = some '-'
  let body := if negative then cs.drop 1 else cs
  let digits := body.takeWhile Char.isDigit
  let isWhole := digits.length == body.length
  match digits with
  | [] => .error .malformed
  | '0' :: more => if more.isEmpty && isWhole then .ok 0 else .error .malformed
  | _ =>
    if Number.decimalDigitLimit < cs.length - body.length + digits.length then .error .tooLong
    else if isWhole then
      .ok (Number.signed negative (Number.positional 10 (digits.filterMap (Number.digitIn? 10))))
    else .error .malformed

/-- The integer that a text spells. -/
def integer (s : String) : Except Fault Int :=
  match (dropPlus? (trim s)).bind dropZeros? with
  | none => .error .malformed
  | some cs =>
    let cs := dropFraction cs
    plainInteger ((dropUnderscores? cs).getD cs)

/-- The number that a text spells. Blanks around it are dropped only if it has no underscores. -/
def decimal? (s : String) : Option Binary64 :=
  Number.plainFloat? (trim s) <|> (dropUnderscores? s.toList).bind Number.plainFloat?

end InputScript.Numeral
