import InputScript.Text.Octet

/-!
# Shell commands

The shape of a shell script after reading: words made of literal octets and expansions, and commands
made of words.
-/

namespace InputScript.Shell

/-- What a redirection does to a descriptor. -/
inductive Direction
  | input
  | output
  /-- As `output`, but also where files that exist are protected. -/
  | overwrite
  | append
  /-- Makes a descriptor for reading a copy of another, or closes it. -/
  | copyInput
  /-- Makes a descriptor for writing a copy of another, or closes it. -/
  | copyOutput
  /-- Makes the target itself the input. -/
  | here
deriving DecidableEq, Repr

mutual

/-- A part of a word. -/
inductive Part
  | text (octets : Octets) (quoted : Bool)
  /-- A leading tilde with the name of a user. -/
  | home (user : Octets)
  | parameter (name : Octets) (form : Form) (quoted : Bool)
  /-- The output of a command. -/
  | output (body : Command) (quoted : Bool)
  | arithmetic (expression : List Part) (quoted : Bool)

/-- How a parameter is expanded. In four of the forms `orEmpty` says that an empty value counts as
unset. -/
inductive Form
  | value
  | length
  | fallback (orEmpty : Bool) (word : List Part)
  | assign (orEmpty : Bool) (word : List Part)
  | require (orEmpty : Bool) (word : List Part)
  | alternative (orEmpty : Bool) (word : List Part)
  | trimStart (longest : Bool) (pattern : List Part)
  | trimEnd (longest : Bool) (pattern : List Part)
  /-- No form at all, which ends the shell that comes to expand it. -/
  | malformed

/-- A redirection of a descriptor. -/
inductive Redirection
  | mk (descriptor : Nat) (direction : Direction) (target : List Part)

/-- A command. -/
inductive Command
  | simple (assignments : List (Octets × List Part)) (words : List (List Part))
      (redirections : List Redirection)
  | pipeline (stages : List Command)
  | negation (command : Command)
  | both (first second : Command)
  | either (first second : Command)
  | sequence (commands : List Command)
  | background (command : Command)
  | subshell (body : Command)
  | redirected (body : Command) (redirections : List Redirection)
  | branch (condition body otherwise : Command)
  /-- Repeats while the condition succeeds, or until it does. -/
  | cycle (untilSuccess : Bool) (condition body : Command)
  /-- Repeats for each word, or for each positional parameter. -/
  | each (name : Octets) (words : Option (List (List Part))) (body : Command)
  | select (word : List Part) (arms : List (List (List Part) × Command))
  | define (name : Octets) (body : Command)

end

/-- A word of a command. -/
abbrev Word := List Part

/-- Does nothing. -/
def Command.nothing : Command := .sequence []

end InputScript.Shell
