import InputScript.Session

/-!
# Splitting a line

A line without expansion characters is split in process. Any other line is handed to the shell as the
arguments of a `printf` that ends each word with a zero character; a first word of its own guards
against an empty expansion.
-/

namespace InputScript.Expansion

variable {σ ω : Type} [Host σ]

/-- The shell command that prints the words of a line. -/
def shellScript (code : String) : String := "printf '%s\\0' - " ++ code

/-- The pieces between zero characters. -/
def pieces : List Char → List (List Char)
  | [] => [[]]
  | c :: rest =>
    if c = '\x00' then [] :: pieces rest
    else
      match pieces rest with
      | piece :: more => (c :: piece) :: more
      | [] => [[c]]

/-- The words in the output of the shell: all pieces but the guard and what follows the last zero. -/
def outputWords (output : List Char) : List String :=
  ((pieces output).drop 1).dropLast.map String.ofList

/-- What the shell's answer says about the line. -/
def ofFinished (f : Finished) : Except ExpansionFault (List String) :=
  if f.status != 0 then
    let complaint := Text.trim (String.ofList (Text.decodeLossy f.complaint))
    .error (if complaint.isEmpty then .status f.status else .complained complaint)
  else
    match Text.decodeUtf8 f.output with
    | .error fault => .error (.undecodable fault)
    | .ok cs => .ok (outputWords cs)

/-- Expands a line with the shell. -/
def expand (shell code : String) : Act σ ω (List String) := do
  Act.note (.lineExpanding shell code)
  let s ← get
  let argv := [shell, "-c", shellScript code]
  match passable argv s.environment with
  | .error cause => Act.fail (.expansion (.unpassable cause))
  | .ok () =>
    match ← Act.spawn argv with
    | .error e => Act.fail (.expansion (.noShell shell e))
    | .ok finished => Act.ofExcept .expansion (ofFinished finished)

/-- The words of a line. -/
def words (shell text : String) : Act σ ω (List String) :=
  match Word.command text with
  | .error fault => Act.fail (.word (.refused fault))
  | .ok code =>
    if Word.needsShell code then expand shell code
    else
      match Word.tokens code.toList with
      | .error fault => Act.fail (.word (.unsplittable fault))
      | .ok words => pure words

/-- The words of a line, a fault carrying the line's number. -/
def split (shell text : String) (line : Option Nat) : Act σ ω (List String) :=
  tryCatch (words shell text) fun
    | .fault f => throw (.fault { f with line := f.line <|> line })
    | .crash c => throw (.crash c)

end InputScript.Expansion
