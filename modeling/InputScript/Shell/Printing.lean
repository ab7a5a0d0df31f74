import InputScript.Number.Decimal
import InputScript.Number.Literal
import InputScript.Shell.Arithmetic

/-!
# Printing by a format

The commands that print their arguments: one fills a format again and again until the arguments are
used up, the other prints its arguments with blanks between them.
-/

namespace InputScript.Shell.Printing

/-- The octet of a letter after a backslash. -/
def letterEscape? : Char → Option Char
  | 'a' => some (Char.ofNat 7)
  | 'b' => some (Char.ofNat 8)
  | 'f' => some (Char.ofNat 12)
  | 'n' => some '\n'
  | 'r' => some '\r'
  | 't' => some '\t'
  | 'v' => some (Char.ofNat 11)
  | '\\' => some '\\'
  | _ => none

def isOctal (c : Char) : Bool := '0' ≤ c && c ≤ '7'

/-- The octet that octal digits spell. -/
def octal (digits : Octets) : Char :=
  Char.ofNat (digits.foldl (fun n c => n * 8 + (c.toNat - '0'.toNat)) 0 % 256)

/-- Takes up to three octal digits. -/
def octalRun (cs : Octets) : Octets × Octets :=
  let digits := (cs.take 3).takeWhile isOctal
  (digits, cs.drop digits.length)

/-- What the text after a backslash stands for, and the rest. An unknown letter leaves the backslash
as it is. -/
def escape : Octets → Char × Octets
  | [] => ('\\', [])
  | c :: rest =>
    match letterEscape? c with
    | some d => (d, rest)
    | none =>
      if isOctal c then
        let (digits, tail) := octalRun (c :: rest)
        (octal digits, tail)
      else ('\\', c :: rest)

/-- Text with its escapes replaced, and whether it asked for nothing more to be printed; the bound is
at least its length. An octal number has a zero in front here. -/
def unescapeWithin : Nat → Octets → Octets × Bool
  | 0, _ => ([], false)
  | _ + 1, [] => ([], false)
  | _ + 1, '\\' :: 'c' :: _ => ([], true)
  | bound + 1, '\\' :: '0' :: rest =>
    let (digits, tail) := octalRun rest
    let (more, stopped) := unescapeWithin bound tail
    (octal digits :: more, stopped)
  | bound + 1, '\\' :: rest =>
    let (c, tail) := escape rest
    let (more, stopped) := unescapeWithin bound tail
    (c :: more, stopped)
  | bound + 1, c :: rest =>
    let (more, stopped) := unescapeWithin bound rest
    (c :: more, stopped)

def unescape (cs : Octets) : Octets × Bool := unescapeWithin cs.length cs

/-- Prints arguments with blanks between them, escapes replaced; `-n` leaves out the line end. -/
def echo (args : List Octets) : Octets :=
  let (args, lineEnd) : List Octets × Octets :=
    match args with
    | ['-', 'n'] :: rest => (rest, [])
    | _ => (args, ['\n'])
  let (text, stopped) := unescape (List.intercalate [' '] args)
  if stopped then text else text ++ lineEnd

/-- A place in a format that takes an argument. -/
structure Directive where
  leftAligned : Bool := false
  zeroFilled : Bool := false
  plus : Bool := false
  blank : Bool := false
  alternate : Bool := false
  width : Nat := 0
  precision : Option Nat := none
  letter : Char

/-- Adds blanks up to the width. -/
def Directive.pad (d : Directive) (text : Octets) : Octets :=
  let fill := List.replicate (d.width - text.length) ' '
  if d.leftAligned then text ++ fill else fill ++ text

/-- The text of a number from its sign and digits. -/
def Directive.number (d : Directive) (sign : Octets) (digits : Octets) : Octets :=
  match d.precision with
  | some n => d.pad (sign ++ List.replicate (n - digits.length) '0' ++ digits)
  | none =>
    if d.zeroFilled && !d.leftAligned then
      sign ++ List.replicate (d.width - sign.length - digits.length) '0' ++ digits
    else d.pad (sign ++ digits)

/-- What printing gives: the text, whether all arguments were fit, and whether to stop. -/
structure Printed where
  text : Octets := []
  fit : Bool := true
  stopped : Bool := false

/-- The integer that an argument spells as far as it does, and whether it does so to its end. A quote
in front asks for the code of the next octet. -/
def argumentInteger (arg : Octets) : Int × Bool :=
  match arg with
  | '\'' :: c :: _ | '"' :: c :: _ => (c.toNat, true)
  | _ =>
    let body := arg.dropWhile Arithmetic.isSpace
    let (negative, digits) : Bool × Octets :=
      match body with
      | '-' :: rest => (true, rest)
      | '+' :: rest => (false, rest)
      | _ => (false, body)
    match Arithmetic.readDigits digits with
    | some (n, rest) => (if negative then -(n : Int) else n, rest.isEmpty)
    | none => (0, arg.isEmpty)

/-- Digits of a number in a base. -/
def digits (base : Nat) (upper : Bool) (n : Nat) : Octets :=
  let cs := (Text.digitsOf base n).map Text.digitChar
  if upper then cs.map Char.toUpper else cs

/-- Prints one argument as a directive says; `none` if there is no such directive. -/
def Directive.print? (d : Directive) (arg : Octets) : Option Printed :=
  let cut (text : Octets) : Octets :=
    match d.precision with
    | some n => text.take n
    | none => text
  let unsigned (base : Nat) (upper : Bool) (lead : Octets) : Printed :=
    let (n, fit) := argumentInteger arg
    let n := Arithmetic.toPattern n
    { text := d.number (if d.alternate && n != 0 then lead else []) (digits base upper n), fit }
  match d.letter with
  | 's' => some { text := d.pad (cut arg) }
  | 'c' => some { text := d.pad (arg.take 1) }
  | 'b' =>
    let (text, stopped) := unescape arg
    some { text := d.pad (cut text), stopped }
  | 'd' | 'i' =>
    let (n, fit) := argumentInteger arg
    let sign : Octets :=
      if n < 0 then ['-'] else if d.plus then ['+'] else if d.blank then [' '] else []
    some { text := d.number sign (digits 10 false n.natAbs), fit }
  | 'f' | 'F' =>
    let read := Number.readFloat? (String.ofList arg)
    let places := d.precision.getD 6
    let text := (Number.fixed places ((read.getD (.zero false)))).toList
    let digits := (text.dropWhile (· == '-')).takeWhile fun c => places != 0 || c != '.'
    let sign : Octets :=
      if text.head? = some '-' then ['-']
      else if d.plus then ['+'] else if d.blank then [' '] else []
    some { text := { d with precision := none }.number sign digits, fit := read.isSome || arg.isEmpty }
  | 'u' => some (unsigned 10 false [])
  | 'o' => some (unsigned 8 false ['0'])
  | 'x' => some (unsigned 16 false ['0', 'x'])
  | 'X' => some (unsigned 16 true ['0', 'X'])
  | _ => none

/-- Reads a number or a star, which takes its number from the arguments. -/
def readCount (cs : Octets) (args : List Octets) : Option Int × Octets × List Octets :=
  match cs with
  | '*' :: rest => (some (argumentInteger (args.headD [])).1, rest, args.drop 1)
  | _ =>
    let run := cs.takeWhile Char.isDigit
    let rest := cs.drop run.length
    ((String.ofList run).toNat?.map Int.ofNat, rest, args)

/-- Reads a directive after its percent sign. -/
def readDirective (cs : Octets) (args : List Octets) :
    Option (Directive × Octets × List Octets) :=
  let flags := cs.takeWhile fun c => c == '-' || c == '0' || c == '+' || c == ' ' || c == '#'
  let (width, cs, args) := readCount (cs.drop flags.length) args
  let (precision, cs, args) : Option Nat × Octets × List Octets :=
    match cs with
    | '.' :: rest =>
      let (n, rest, args) := readCount rest args
      (some (n.getD 0).toNat, rest, args)
    | _ => (none, cs, args)
  match cs with
  | letter :: rest =>
    let width := width.getD 0
    some (⟨flags.contains '-' || width < 0, flags.contains '0', flags.contains '+',
      flags.contains ' ', flags.contains '#', width.natAbs, precision, letter⟩, rest, args)
  | [] => none

/-- One pass over a format. -/
structure Pass where
  text : Octets := []
  args : List Octets
  fit : Bool := true
  /-- Whether a directive was met. -/
  directed : Bool := false
  /-- Whether nothing more is to be printed. -/
  stopped : Bool := false

/-- Goes over a format once; the bound is at least its length. -/
def passWithin : Nat → Octets → List Octets → Pass
  | 0, _, args => { args }
  | _ + 1, [], args => { args }
  | bound + 1, '\\' :: rest, args =>
    let (c, tail) := escape rest
    let more := passWithin bound tail args
    { more with text := c :: more.text }
  | bound + 1, '%' :: '%' :: rest, args =>
    let more := passWithin bound rest args
    { more with text := '%' :: more.text }
  | bound + 1, '%' :: rest, args =>
    match readDirective rest args with
    | none => { args, fit := false, stopped := true }
    | some (d, tail, args) =>
      match d.print? (args.headD []) with
      | none => { args, fit := false, stopped := true }
      | some printed =>
        if printed.stopped then
          { text := printed.text, args := args.drop 1, directed := true, stopped := true }
        else
          let more := passWithin bound tail (args.drop 1)
          { more with
            text := printed.text ++ more.text
            fit := printed.fit && more.fit
            directed := true }
  | bound + 1, c :: rest, args =>
    let more := passWithin bound rest args
    { more with text := c :: more.text }

/-- Fills a format until the arguments are used up; the bound is at least the number of passes. -/
def fillWithin : Nat → Octets → List Octets → Octets × Bool
  | 0, _, _ => ([], true)
  | bound + 1, format, args =>
    let pass := passWithin format.length format args
    if pass.stopped || !pass.directed || pass.args.isEmpty then (pass.text, pass.fit)
    else
      let (more, fit) := fillWithin bound format pass.args
      (pass.text ++ more, pass.fit && fit)

/-- The text of a filled format, and whether all arguments were fit for it. -/
def fill (format : Octets) (args : List Octets) : Octets × Bool :=
  fillWithin (args.length + 1) format args

end InputScript.Shell.Printing
