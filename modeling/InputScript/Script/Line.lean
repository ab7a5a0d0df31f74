import InputScript.Text.Blank
import InputScript.Text.Utf8

/-!
# Script lines

A script is a sequence of physical lines, as text or as bytes. Reading decodes and trims each line
and drops blank lines and comments; what remains keeps the number of its physical line, counted
from one. Lines are decoded one at a time as they are reached, so a line that cannot be decoded does
no harm before its turn.
-/

namespace InputScript.Script

/-- A physical line as it comes from a source, line end included. -/
inductive RawLine
  | text (s : String)
  | bytes (bytes : List UInt8)
deriving DecidableEq, Repr

/-- A line that is neither blank nor a comment, trimmed, with its number. -/
structure Line where
  number : Nat
  text : String
deriving DecidableEq, Repr

/-- A physical line that is not UTF-8. -/
structure DecodeFault where
  number : Nat
  fault : Text.Utf8Fault
deriving DecidableEq, Repr

/-- Splits after each occurrence of a separator; the last piece may lack it. -/
def splitAfter {α : Type} [DecidableEq α] (separator : α) : List α → List (List α)
  | [] => []
  | a :: rest =>
    if a = separator then [a] :: splitAfter separator rest
    else
      match splitAfter separator rest with
      | [] => [[a]]
      | piece :: pieces => (a :: piece) :: pieces

/-- The physical lines of a text. -/
def RawLine.ofText (s : String) : List RawLine :=
  (splitAfter '\n' s.toList).map fun cs => .text (String.ofList cs)

/-- The physical lines of a byte string. -/
def RawLine.ofBytes (bytes : List UInt8) : List RawLine :=
  (splitAfter 10 bytes).map .bytes

/-- The characters of a physical line. -/
def RawLine.decode : RawLine → Except Text.Utf8Fault String
  | .text s => .ok s
  | .bytes bs => (Text.decodeUtf8 bs).map String.ofList

/-- Whether a trimmed text is dropped: it is empty or a comment. -/
def isDropped (text : String) : Bool :=
  match text.toList with
  | [] => true
  | c :: _ => c == '#' || c == ';'

/-- What comes next in a sequence of physical lines. -/
inductive Next
  | line (line : Line)
  | fault (fault : DecodeFault)
  | finished
deriving DecidableEq, Repr

/-- Reads up to the next line that is not dropped. `consumed` counts the physical lines read before;
the answer comes with the new count. -/
def next (consumed : Nat) : List RawLine → Next × Nat
  | [] => (.finished, consumed)
  | raw :: rest =>
    match raw.decode with
    | .error fault => (.fault ⟨consumed + 1, fault⟩, consumed + 1)
    | .ok s =>
      let text := Text.trim s
      if isDropped text then next (consumed + 1) rest
      else (.line ⟨consumed + 1, text⟩, consumed + 1)

/-- All lines of a source, up to the first that cannot be decoded. -/
def readLinesFrom (consumed : Nat) : List RawLine → List Line × Option DecodeFault
  | [] => ([], none)
  | raw :: rest =>
    match raw.decode with
    | .error fault => ([], some ⟨consumed + 1, fault⟩)
    | .ok s =>
      let text := Text.trim s
      let (lines, fault) := readLinesFrom (consumed + 1) rest
      if isDropped text then (lines, fault) else (⟨consumed + 1, text⟩ :: lines, fault)

/-- All lines of a source from its start. -/
def readLines (source : List RawLine) : List Line × Option DecodeFault :=
  readLinesFrom 0 source

end InputScript.Script
