import InputScript.Host
import InputScript.Shell.Run

/-!
# Sandboxes

A host that is all a value: a clock that moves only when it is used, and a file tree with the usual
programs, a shell among them, and a working directory of its own.
-/

namespace InputScript

/-- A self-contained host. -/
structure Sandbox where
  clock : SteppedClock Binary64
  files : Files

namespace Sandbox

/-- The native programs by name: the tools, and the shell under its names. -/
def programs : List (Octets × Node) :=
  let native (name program : String) : Octets × Node := (name.toList, .program program.toList)
  Shell.Tool.table.map (fun (name, _) => native name name)
    ++ [native "env" "env", native "sh" "sh", native "dash" "sh", native "bash" "sh"]

/-- The names that lead to the working directory. -/
def workingDirectory : List Octets := ["tmp".toList, "work".toList]

/-- The files of a fresh host. -/
def fresh : Files :=
  let root : Node := .directory
    [("bin".toList, .directory programs),
     ("usr".toList, .directory [("bin".toList, .directory programs)]),
     ("dev".toList, .directory [("null".toList, .void)]),
     ("etc".toList, .emptyDirectory), ("root".toList, .emptyDirectory),
     ("home".toList, .emptyDirectory), ("tmp".toList, .emptyDirectory)]
  { root := root.put .emptyDirectory workingDirectory, working := workingDirectory }

/-- Puts a file at a path below the working directory. -/
def place (files : Files) (path : String) (node : Node) : Files :=
  let names := ((Octets.ofText path).splitOn '/').filter fun n => n != [] && n != ['.']
  { files with root := files.root.put node (files.working ++ names) }

/-- Where programs are looked for if the environment does not say so. -/
def usualPath : String := "/bin:/usr/bin"

/-- Runs a program. -/
def run (argv : List String) (env : Environment) (s : Sandbox) :
    Except SystemError Finished × Sandbox :=
  let path := Octets.ofText ((env.get? "PATH").getD usualPath)
  match Shell.Image.find s.files path (argv.map Octets.ofText) with
  | .error e => (.error (.errno e argv.head?), s)
  | .ok image =>
    let bindings := env.map fun (name, value) => (Octets.ofText name, Octets.ofText value)
    let outcome := Shell.run s.files image bindings []
    let status : Int :=
      match outcome.ended with
      | .exited status => status
      | .killed signal => -signal
    (.ok { status
           output := Octets.toBytes outcome.output
           complaint := Octets.toBytes outcome.complaint },
     { s with files := outcome.files })

/-- Reads a file. -/
def readFile (path : String) (s : Sandbox) : Except Errno (List UInt8) :=
  (s.files.read (Octets.ofText path)).map Octets.toBytes

instance : Host Sandbox where
  read s :=
    let (now, clock) := s.clock.read
    (now, { s with clock })
  sleep t s := { s with clock := s.clock.sleep t }
  patience s := s.clock.patience
  run
  readFile

end Sandbox

end InputScript
