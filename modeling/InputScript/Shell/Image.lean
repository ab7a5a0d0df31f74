import InputScript.Files
import InputScript.Shell.Arithmetic

/-!
# Program images

A program is found by its name along a path of directories and loaded: a native program runs as it
is, a file that starts with `#!` names the program that runs it.
-/

namespace InputScript.Shell

/-- A program ready to run. -/
structure Image where
  /-- The name of the native program. -/
  program : Octets
  /-- Its arguments, the first being what it was called. -/
  arguments : List Octets
deriving DecidableEq, Repr

namespace Image

/-- How often a program may be run by another. -/
def maxInterpreters : Nat := 5

def isBlank (c : Char) : Bool := c == ' ' || c == '\t'

/-- The program named in the first line of a file, and the argument that line gives it. -/
def interpreter? (content : Octets) : Option (Octets × List Octets) :=
  match content with
  | '#' :: '!' :: rest =>
    let line := ((rest.take 254).takeWhile (· != '\n')).dropWhile isBlank
    let line := (line.reverse.dropWhile isBlank).reverse
    let program := line.takeWhile fun c => !isBlank c
    let argument := (line.drop program.length).dropWhile isBlank
    if program.isEmpty then none
    else some (program, if argument.isEmpty then [] else [argument])
  | _ => none

/-- Loads the program at a path. -/
def load (files : Files) : Nat → Octets → List Octets → Except Errno Image
  | 0, _, _ => .error .tooManyLinks
  | bound + 1, path, arguments =>
    match files.get path with
    | .error e => .error e
    | .ok (.program name) => .ok ⟨name, arguments⟩
    | .ok (.directory _) | .ok .void => .error .permission
    | .ok (.file content executable) =>
      if !executable then .error .permission
      else
        match interpreter? content with
        | some (program, extra) =>
          load files bound program (program :: extra ++ path :: arguments.drop 1)
        | none => .error .execFormat

/-- The paths at which a program of a given name may be: the name itself if it has a slash, else one
in each directory of the path. -/
def candidates (path : Octets) (name : Octets) : List Octets :=
  if name.contains '/' then [name]
  else
    (path.splitOn ':').map fun directory =>
      if directory.isEmpty then name
      else if directory.getLast? = some '/' then directory ++ name
      else directory ++ '/' :: name

/-- Tries candidates in turn. Of several errors the first that is not about a missing file counts, else
the last. -/
def loadFirst (files : Files) (arguments : List Octets) (kept : Option Errno) :
    List Octets → Except Errno Image
  | [] => .error (kept.getD .noEntry)
  | candidate :: rest =>
    match load files maxInterpreters candidate arguments with
    | .ok image => .ok image
    | .error e =>
      let kept :=
        match kept with
        | some k => if k = .noEntry || k = .notDirectory then some e else some k
        | none => some e
      loadFirst files arguments kept rest

/-- Finds and loads a program. -/
def find (files : Files) (path : Octets) (arguments : List Octets) : Except Errno Image :=
  loadFirst files arguments none (candidates path (arguments.headD []))

/-- Finds a program for the shell, which runs an executable file of no known format as a script of its
own. -/
def findForShell (files : Files) (path : Octets) (arguments : List Octets) : Except Errno Image :=
  match find files path arguments with
  | .error .execFormat =>
    let isScript (candidate : Octets) : Bool :=
      match files.get candidate with
      | .ok (.file _ executable) => executable
      | _ => false
    match (candidates path (arguments.headD [])).find? isScript with
    | some script => .ok ⟨"sh".toList, "sh".toList :: script :: arguments.drop 1⟩
    | none => .error .execFormat
  | found => found

end Image

end InputScript.Shell
