import InputScript.Number.Literal

/-!
# Configuration values

What a configuration file holds before it is checked: nested lists and mappings of plain values. A
mapping keeps its entries in order of insertion; a key that is set again keeps its place. Keys need
not be texts. A tuple is a list here; bytes and sets, which need a tag in a file, are left out.

Escapes can put surrogates without their partners into a string. Such a string is no text, so it is kept
as the code points it is made of.
-/

namespace InputScript

/-- A value of a configuration file. -/
inductive Value
  | null
  | bool (b : Bool)
  | int (n : Int)
  | float (x : Binary64)
  | text (s : String)
  /-- Code points with a surrogate among them. -/
  | unpaired (codes : List Nat)
  /-- A date or a time. -/
  | moment
  | list (items : List Value)
  | mapping (entries : List (Value × Value))
deriving Inhabited

namespace Value

/-- The string of some code points. -/
def ofCodes (codes : List Nat) : Value :=
  if codes.all fun n => decide n.isValidChar then .text (String.ofList (codes.map Char.ofNat))
  else .unpaired codes

/-- Code points as a text, with the replacement character for each surrogate. -/
def shown (codes : List Nat) : String :=
  String.ofList (codes.map fun n => if n.isValidChar then Char.ofNat n else '\ufffd')

/-- Whether a value is a string. -/
def isString : Value → Bool
  | .text _ | .unpaired _ => true
  | _ => false

/-- Whether a value is a string with a surrogate in it. -/
def isUnpaired : Value → Bool
  | .unpaired _ => true
  | _ => false

/-- The number of a value: truth values count as one and zero. -/
def number? : Value → Option Binary64
  | .bool b => some (if b then .ofNat 1 else .ofNat 0)
  | .int n => Binary64.ofInt? n
  | .float x => some x
  | _ => none

/-- Whether two keys are the same. Numbers are compared by value, lists and mappings are no keys. -/
def sameKey : Value → Value → Bool
  | .null, .null => true
  | .text a, .text b => a == b
  | .unpaired a, .unpaired b => a == b
  | .moment, .moment => true
  | .int a, .int b => a == b
  | a, b =>
    match a.number?, b.number? with
    | some x, some y => x.eq y
    | _, _ => false

/-- Whether a value may be a key. -/
def isKey : Value → Bool
  | .list _ | .mapping _ => false
  | _ => true

/-- Sets an entry of a mapping, in place if the key is there. -/
def setEntry {α : Type} (entries : List (Value × α)) (key : Value) (value : α) : List (Value × α) :=
  if entries.any fun (k, _) => k.sameKey key then
    entries.map fun (k, v) => if k.sameKey key then (k, value) else (k, v)
  else entries ++ [(key, value)]

/-- A mapping from pairs in the order in which they were written. -/
def ofPairs (pairs : List (Value × Value)) : Value :=
  .mapping (pairs.foldl (fun entries (k, v) => setEntry entries k v) [])

/-- The value of a textual key. -/
def field? {α : Type} (entries : List (Value × α)) (name : String) : Option α :=
  (entries.find? fun (k, _) => k.sameKey (.text name)).map (·.2)

/-- Whether a value stands for something: not null, false, zero or empty. -/
def isTruthy : Value → Bool
  | .null => false
  | .bool b => b
  | .int n => n != 0
  | .float x => !x.isZero
  | .text s => !s.isEmpty
  | .unpaired codes => !codes.isEmpty
  | .moment => true
  | .list items => !items.isEmpty
  | .mapping entries => !entries.isEmpty

end Value

end InputScript
