import InputScript.Script.Scratch
import InputScript.Verb
import InputScript.Word.First

/-!
# Loop bodies

The body of a loop is everything up to the `end` that matches it. Lines are classified by their first
word only, without expanding them: a `loop` or `if` opens a block, an `end` closes one.
-/

namespace InputScript.Machine

open Script (Line)

/-- What a first word does to the nesting of blocks. -/
inductive Mark
  | opener
  | closer
  | neutral
deriving DecidableEq, Repr

/-- The mark of a first word. -/
def Mark.ofWord : Option String → Mark
  | some word =>
    match Verb.ofName? word with
    | some .close => .closer
    | some verb => if verb.opensBlock then .opener else .neutral
    | none => .neutral
  | none => .neutral

/-- Why a body cannot be collected. -/
inductive BodyFault
  /-- A line whose first word cannot be told. -/
  | obscure (line : Line) (trouble : Trouble Word.WordFault)
  /-- The lines end before the matching `end`. -/
  | unfinished

/-- A collected body: its lines, the line of the matching `end`, and the lines after it. -/
structure Body where
  lines : List Line
  closer : Line
  rest : List Line
deriving DecidableEq, Repr

/-- Takes the lines up to the `end` that closes `nesting` more blocks than it opens. -/
def takeBody (nesting : Nat) : List Line → Except BodyFault Body
  | [] => .error .unfinished
  | line :: rest =>
    match Word.firstWord line.text with
    | .error trouble => .error (.obscure line trouble)
    | .ok word =>
      let keep (nesting : Nat) : Except BodyFault Body :=
        match takeBody nesting rest with
        | .error fault => .error fault
        | .ok body => .ok { body with lines := line :: body.lines }
      match Mark.ofWord word, nesting with
      | .closer, 0 => .ok ⟨[], line, rest⟩
      | .closer, n + 1 => keep n
      | .opener, n => keep (n + 1)
      | .neutral, n => keep n

end InputScript.Machine
