import InputScript.Clock
import InputScript.Environment
import InputScript.Number.Binary64
import InputScript.SystemError

/-!
# Hosts

What the engine needs from the machine it runs on: a clock, files, and child processes. A host is
any type of states with these operations, so that everything said about the engine holds whatever
the clock does, whatever the files hold and however the shell and other programs behave.
-/

namespace InputScript

/-- A child process that ended. -/
structure Finished where
  /-- The exit status; the negated number of a signal that killed the child. -/
  status : Int
  /-- What it wrote to its standard output. -/
  output : List UInt8
  /-- What it wrote to its standard error. -/
  complaint : List UInt8
deriving DecidableEq, Repr

/-- The outside world with states of type `σ`. -/
class Host (σ : Type) extends Clock Binary64 σ where
  /-- Runs a program to its end with the given arguments, the first naming the program, and exactly
  the given variables; there is nothing to read on its standard input. -/
  run : List String → Environment → σ → Except SystemError Finished × σ
  /-- The bytes of a file. -/
  readFile : String → σ → Except Errno (List UInt8)
  /-- Whether the variables of a session are those of the process itself. The system keeps no zero
  character in such a variable. -/
  systemVariables : Bool := false

/-- Why words or variables cannot be handed to a child process at all. -/
inductive Unpassable
  | badVariable
  | embeddedNul
deriving DecidableEq, Repr

def Unpassable.message : Unpassable → String
  | .badVariable => "illegal environment variable name"
  | .embeddedNul => "embedded null byte"

/-- Whether a text holds the character that ends strings in a process image. -/
def hasNul (s : String) : Bool := s.toList.contains '\x00'

/-- Checks the words and variables of a child process. -/
def passable (argv : List String) (env : Environment) : Except Unpassable Unit :=
  if env.any fun (name, _) => name.toList.contains '=' then .error .badVariable
  else if argv.any hasNul || env.any fun (name, value) => hasNul name || hasNul value then
    .error .embeddedNul
  else .ok ()

end InputScript
