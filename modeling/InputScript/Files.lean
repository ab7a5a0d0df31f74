import InputScript.SystemError
import InputScript.Text.Octet

/-!
# File trees

The files a host knows: directories, plain files with their bytes and a mark for those that may be
executed, the images of native programs, and the device that swallows everything. Paths are resolved
component by component from a working directory.
-/

namespace InputScript

/-- A file of any kind. -/
inductive Node
  | file (content : Octets) (executable : Bool)
  | directory (entries : List (Octets × Node))
  /-- The image of a native program. -/
  | program (name : Octets)
  /-- Holds nothing and swallows what is written to it. -/
  | void

namespace Node

/-- An empty directory. -/
def emptyDirectory : Node := .directory []

/-- Sets an entry of a directory, in place if it exists. -/
def setEntry (entries : List (Octets × Node)) (name : Octets) (node : Node) :
    List (Octets × Node) :=
  if entries.any (·.1 == name) then
    entries.map fun entry => if entry.1 == name then (name, node) else entry
  else entries ++ [(name, node)]

/-- The file at the end of a chain of names. -/
def get (node : Node) : List Octets → Except Errno Node
  | [] => .ok node
  | name :: rest =>
    match node with
    | .directory entries =>
      match entries.lookup name with
      | some child => child.get rest
      | none => .error .noEntry
    | _ => .error .notDirectory

/-- Puts a file at the end of a chain of names, making the directories on the way. -/
def put (node new : Node) : List Octets → Node
  | [] => new
  | name :: rest =>
    match node with
    | .directory entries =>
      .directory (setEntry entries name (((entries.lookup name).getD emptyDirectory).put new rest))
    | _ => .directory [(name, emptyDirectory.put new rest)]

/-- Removes the file at the end of a chain of names. -/
def remove (node : Node) : List Octets → Node
  | [] => node
  | [name] =>
    match node with
    | .directory entries => .directory (entries.filter (·.1 != name))
    | _ => node
  | name :: rest =>
    match node with
    | .directory entries =>
      match entries.lookup name with
      | some child => .directory (setEntry entries name (child.remove rest))
      | none => node
    | _ => node

def isDirectory : Node → Bool
  | .directory _ => true
  | _ => false

end Node

/-- A file tree seen from a working directory. -/
structure Files where
  root : Node := .emptyDirectory
  /-- The names that lead from the root to the working directory. -/
  working : List Octets := []

namespace Files

/-- The longest name of a file. -/
def maxName : Nat := 255

/-- Paths of this length and more are refused. -/
def maxPath : Nat := 4096

/-- Follows the components of a path; the empty one and the dot stay, two dots go up. -/
def walk (root : Node) : List Octets → List Octets → Except Errno (List Octets)
  | here, [] => .ok here
  | here, component :: rest =>
    match root.get here with
    | .error e => .error e
    | .ok (.directory entries) =>
      if component == [] || component == ['.'] then walk root here rest
      else if component == ['.', '.'] then walk root here.dropLast rest
      else if maxName < component.length then .error .nameTooLong
      else if entries.any (·.1 == component) then walk root (here ++ [component]) rest
      else .error .noEntry
    | .ok _ => .error .notDirectory

/-- Where the resolution of a path starts. -/
def start (files : Files) (path : Octets) : List Octets :=
  if path.head? == some '/' then [] else files.working

/-- The names that lead from the root to the file of a path. -/
def resolve (files : Files) (path : Octets) : Except Errno (List Octets) :=
  if path.isEmpty then .error .noEntry
  else if maxPath ≤ path.length then .error .nameTooLong
  else walk files.root (files.start path) (path.splitOn '/')

/-- The file of a path. -/
def get (files : Files) (path : Octets) : Except Errno Node := do
  let names ← files.resolve path
  files.root.get names

/-- The names that lead to the place of a path, where a file may or may not be. -/
def place (files : Files) (path : Octets) : Except Errno (List Octets) :=
  if path.isEmpty then .error .noEntry
  else if maxPath ≤ path.length then .error .nameTooLong
  else
    let components := path.splitOn '/'
    let last := components.getLastD []
    if last == [] || last == ['.'] || last == ['.', '.'] then
      match files.resolve path with
      | .ok _ => .error .isDirectory
      | .error e => .error e
    else
      match walk files.root (files.start path) components.dropLast with
      | .error e => .error e
      | .ok here =>
        match files.root.get here with
        | .ok (.directory _) =>
          if maxName < last.length then .error .nameTooLong else .ok (here ++ [last])
        | _ => .error .notDirectory

/-- The content of a file. -/
def read (files : Files) (path : Octets) : Except Errno Octets := do
  match ← files.get path with
  | .file content _ => return content
  | .directory _ => throw .isDirectory
  | .program name => return name
  | .void => return []

/-- Sets the content of a file, which is made if it does not exist. -/
def write (files : Files) (names : List Octets) (content : Octets) : Files :=
  match files.root.get names with
  | .ok (.file _ executable) =>
    { files with root := files.root.put (.file content executable) names }
  | .ok _ => files
  | .error _ => { files with root := files.root.put (.file content false) names }

/-- Adds to the end of a file. -/
def append (files : Files) (names : List Octets) (content : Octets) : Files :=
  match files.root.get names with
  | .ok (.file old _) => files.write names (old ++ content)
  | .ok _ => files
  | .error _ => files.write names content

/-- The names in a directory, in byte order. -/
def list (files : Files) (path : Octets) : List Octets :=
  match files.get path with
  | .ok (.directory entries) => (entries.map (·.1)).mergeSort Octets.le
  | _ => []

end Files

end InputScript
