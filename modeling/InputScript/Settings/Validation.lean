import InputScript.Settings.Basic
import InputScript.Settings.Numeral
import InputScript.Settings.Value
import InputScript.Text.Case

/-!
# Validation

Turns configuration values into settings. Every field is checked on its own, so that all faults are
found at once, in the order of the fields; fields that are not known are ignored and fields that are
missing take their defaults. The checks are lenient about types: a text may spell a number, a number
may stand for a truth value.
-/

namespace InputScript

/-- What is wrong with a field. -/
inductive Violation
  | stringType
  | stringTooShort
  | stringTooLong
  | stringUnicode
  | intType
  | intParsing
  | intParsingSize
  | intFromFloat
  | finiteNumber
  | floatType
  | floatParsing
  | boolType
  | boolParsing
  | greaterThanEqual
  | greaterThan
  | lessThanEqual
  | listType
  | modelType
  | valueError
deriving DecidableEq, Repr

def Violation.name : Violation → String
  | .stringType => "string_type"
  | .stringTooShort => "string_too_short"
  | .stringTooLong => "string_too_long"
  | .stringUnicode => "string_unicode"
  | .intType => "int_type"
  | .intParsing => "int_parsing"
  | .intParsingSize => "int_parsing_size"
  | .intFromFloat => "int_from_float"
  | .finiteNumber => "finite_number"
  | .floatType => "float_type"
  | .floatParsing => "float_parsing"
  | .boolType => "bool_type"
  | .boolParsing => "bool_parsing"
  | .greaterThanEqual => "greater_than_equal"
  | .greaterThan => "greater_than"
  | .lessThanEqual => "less_than_equal"
  | .listType => "list_type"
  | .modelType => "model_type"
  | .valueError => "value_error"

/-- A violation at a place, which is named by the fields and positions that lead to it. -/
structure Finding where
  place : List String
  violation : Violation
deriving DecidableEq, Repr

/-- Why values are refused. -/
inductive Refusal
  /-- Everything that is wrong with them. -/
  | findings (all : List Finding)
  /-- A complaint quotes a string that cannot be written, and nothing else is said. -/
  | unwritable
deriving DecidableEq, Repr

/-- Refuses for both reasons. -/
def Refusal.both : Refusal → Refusal → Refusal
  | .findings a, .findings b => .findings (a ++ b)
  | _, _ => .unwritable

/-- A value or why it is refused. -/
abbrev Checked (α : Type) := Except Refusal α

namespace Validation

/-- A single violation of the field under check. -/
def violated {α : Type} (v : Violation) : Checked α := .error (.findings [⟨[], v⟩])

/-- Puts a field before the place of all findings. -/
def within {α : Type} (name : String) (checked : Checked α) : Checked α :=
  checked.mapError fun
    | .findings all => .findings (all.map fun f => { f with place := name :: f.place })
    | .unwritable => .unwritable

/-- Applies a checked function to a checked value; both may be refused. -/
def apply {α β : Type} (f : Checked (α → β)) (a : Checked α) : Checked β :=
  match f, a with
  | .ok f, .ok a => .ok (f a)
  | .error e, .ok _ => .error e
  | .ok _, .error e => .error e
  | .error e, .error e' => .error (e.both e')

/-- Checks a field of a mapping if it is there. -/
def field {α : Type} (entries : List (Value × Value)) (name : String) (default : α)
    (check : Value → Checked α) : Checked α :=
  match Value.field? entries name with
  | some v => within name (check v)
  | none => .ok default

/-! ## Kinds of values -/

/-- Any string. -/
def text : Value → Checked String
  | .text s => .ok s
  | .unpaired codes => .ok (Value.shown codes)
  | _ => violated .stringType

/-- A text within bounds on its length. -/
def boundedText (least : Nat) (most : Option Nat) : Value → Checked String
  | .text s =>
    if s.length < least then violated .stringTooShort
    else if most.any (· < s.length) then violated .stringTooLong
    else .ok s
  | .unpaired _ => violated .stringUnicode
  | _ => violated .stringType

/-- The integer that a text spells. -/
def integerOfText (s : String) : Checked Int :=
  match Numeral.integer s with
  | .ok n => .ok n
  | .error .malformed => violated .intParsing
  | .error .tooLong => violated .intParsingSize

/-- The integer that a number is equal to. -/
def integerOfFloat (x : Binary64) : Checked Int :=
  match x.toRat? with
  | none => violated .finiteNumber
  | some q =>
    if q.den != 1 then violated .intFromFloat
    else if q.num.natAbs < 0x8000000000000000 then .ok q.num
    else violated .intParsingSize

def integer : Value → Checked Int
  | .int n => .ok n
  | .bool b => .ok (if b then 1 else 0)
  | .float x => integerOfFloat x
  | .text s => integerOfText s
  | .unpaired _ => violated .stringUnicode
  | _ => violated .intType

/-- An integer within bounds. -/
def boundedInteger (least most : Nat) (v : Value) : Checked Nat := do
  let n ← integer v
  if (most : Int) < n then violated .lessThanEqual
  else if n < (least : Int) then violated .greaterThanEqual
  else return n.toNat

def float : Value → Checked Binary64
  | .float x => .ok x
  | .int n =>
    match Binary64.ofInt? n with
    | some x => .ok x
    | none => violated .floatType
  | .bool b => .ok (.ofNat (if b then 1 else 0))
  | .text s =>
    match Numeral.decimal? s with
    | some x => .ok x
    | none => violated .floatParsing
  | .unpaired _ => violated .stringUnicode
  | _ => violated .floatType

/-- A time within the bounds that all waits have; with `isStrict` the lower bound is excluded. What is
not a number is above the upper bound. -/
def duration (isStrict : Bool) (v : Value) : Checked Binary64 := do
  let x ← float v
  if !(x.le Argument.maxDuration) then violated .lessThanEqual
  else if isStrict && !(Argument.minDuration.lt x) then violated .greaterThan
  else if !isStrict && !(Argument.minDuration.le x) then violated .greaterThanEqual
  else return x

def falseWords : List String := ["0", "off", "f", "false", "n", "no"]

def trueWords : List String := ["1", "on", "t", "true", "y", "yes"]

/-- Whether an integer has sixty-four bits. -/
def isWord (n : Int) : Bool := -0x8000000000000000 ≤ n && n < 0x8000000000000000

/-- The truth value of an integer. -/
def truthOfInteger (n : Int) : Checked Bool :=
  if !isWord n then violated .boolType
  else if n = 0 then .ok false
  else if n = 1 then .ok true
  else violated .boolParsing

def truth : Value → Checked Bool
  | .bool b => .ok b
  | .int n => truthOfInteger n
  | .float x =>
    match integerOfFloat x with
    | .ok n => truthOfInteger n
    | .error _ => violated .boolType
  | .text s =>
    let word := Text.lower s
    if falseWords.contains word then .ok false
    else if trueWords.contains word then .ok true
    else violated .boolParsing
  | .unpaired _ => violated .stringUnicode
  | _ => violated .boolType

/-- Checks the items of a list from a position on. -/
def textsFrom : Nat → List Value → Checked (List String)
  | _, [] => .ok []
  | i, v :: rest =>
    apply ((within (Text.decimal i) (text v)).map List.cons) (textsFrom (i + 1) rest)

def texts : Value → Checked (List String)
  | .list items => textsFrom 0 items
  | _ => violated .listType

/-- The consumers that can be accommodated. -/
def knownTraits : List String := [libinputTrait]

/-- Whether a list holds a string with a surrogate in it. -/
def holdsUnpaired : Value → Bool
  | .list items => items.any Value.isUnpaired
  | _ => false

/-- Names of known consumers; blanks around them, case and empty names do not matter. -/
def traits (v : Value) : Checked (List String) := do
  let names ← texts v
  if holdsUnpaired v then throw .unwritable
  let names := (names.map Text.trim).filter (!·.isEmpty)
  let names := names.map Text.lower
  if names.all knownTraits.contains then return names else violated .valueError

/-- The name of a journal format, in any case. -/
def logFormat (v : Value) : Checked String := do
  let s ← text v
  if v.isUnpaired then throw .unwritable
  let name := Text.lower s
  if name == "console" || name == "json" then return name else violated .valueError

/-! ## Settings -/

/-- The largest number that identifies a device. -/
def maxIdentifier : Nat := 0xFFFF

/-- The profile of a device. -/
def profile (entries : List (Value × Value)) : Checked Profile :=
  let usual : Profile := {}
  let make := fun path name bus vendor product version settleTime traits =>
    ({ path, name, bus, vendor, product, version, settleTime, traits } : Profile)
  let path := field entries "path" usual.path (boundedText 1 none)
  let name := field entries "name" usual.name (boundedText 1 (some 79))
  let bus := field entries "bus" usual.bus (boundedInteger 0 maxIdentifier)
  let vendor := field entries "vendor" usual.vendor (boundedInteger 0 maxIdentifier)
  let product := field entries "product" usual.product (boundedInteger 0 maxIdentifier)
  let version := field entries "version" usual.version (boundedInteger 0 maxIdentifier)
  let settleTime := field entries "settle_time" usual.settleTime (duration false)
  let traits := field entries "quirks" usual.traits traits
  apply (apply (apply (apply (apply (apply (apply (path.map make) name) bus) vendor) product)
    version) settleTime) traits

/-- A profile nested in other settings. -/
def nestedProfile : Value → Checked Profile
  | .mapping entries => profile entries
  | _ => violated .modelType

/-- The settings of the engine. -/
def settings (entries : List (Value × Value)) : Checked Settings :=
  let usual : Settings := {}
  let make := fun device keyDelay dryRun shell maxControlDepth maxExpressionDepth maxScriptDepth
      verbosity logFormat =>
    ({ device, keyDelay, dryRun, shell, maxControlDepth, maxExpressionDepth, maxScriptDepth,
       verbosity, logFormat } : Settings)
  let device := field entries "device" usual.device nestedProfile
  let keyDelay := field entries "key_delay" usual.keyDelay (duration true)
  let dryRun := field entries "dry_run" usual.dryRun truth
  let shell := field entries "shell" usual.shell text
  let control := field entries "max_control_depth" usual.maxControlDepth (boundedInteger 2 256)
  let expression :=
    field entries "max_expression_depth" usual.maxExpressionDepth (boundedInteger 4 1024)
  let script := field entries "max_script_depth" usual.maxScriptDepth (boundedInteger 1 64)
  let verbosity := field entries "verbosity" usual.verbosity (boundedInteger 0 3)
  let format := field entries "log_format" usual.logFormat logFormat
  apply (apply (apply (apply (apply (apply (apply (apply (device.map make) keyDelay) dryRun) shell)
    control) expression) script) verbosity) format

end Validation

end InputScript
