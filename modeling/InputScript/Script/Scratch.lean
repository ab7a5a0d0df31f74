import InputScript.Script.Line

/-!
# Scratch

The stored body of a loop, with a cursor. A reader delivers the line at the cursor and moves it; all
readers share the one cursor, and a reader that once found nothing left never delivers again.
-/

namespace InputScript.Script

/-- Stored lines and the position of the next one to deliver. -/
structure Scratch where
  lines : List Line := []
  cursor : Nat := 0
deriving DecidableEq, Repr

/-- One pass over a scratch. -/
structure Reader where
  ended : Bool := false
deriving DecidableEq, Repr

namespace Scratch

def size (s : Scratch) : Nat := s.lines.length

/-- Stores a line at the end. -/
def append (s : Scratch) (line : Line) : Scratch :=
  { s with lines := s.lines ++ [line] }

/-- Moves the cursor to the first line. -/
def rewind (s : Scratch) : Scratch :=
  { s with cursor := 0 }

/-- Forgets all lines. -/
def truncate (_ : Scratch) : Scratch := {}

/-- The lines not yet delivered. -/
def rest (s : Scratch) : List Line := s.lines.drop s.cursor

/-- The line at the cursor, with the cursor moved past it. -/
def advance (s : Scratch) : Option (Line × Scratch) :=
  match s.lines[s.cursor]? with
  | some line => some (line, { s with cursor := s.cursor + 1 })
  | none => none

/-- Delivers the next line to a reader. -/
def read (s : Scratch) (r : Reader) : Option Line × Scratch × Reader :=
  if r.ended then (none, s, r)
  else
    match s.advance with
    | some (line, s') => (some line, s', r)
    | none => (none, s, { ended := true })

/-- Delivers all that is left to a fresh reader. -/
def readAll (s : Scratch) : List Line × Scratch :=
  (s.rest, { s with cursor := max s.cursor s.lines.length })

end Scratch

end InputScript.Script
