import InputScript.Shell.Command
import InputScript.Shell.Pattern
import InputScript.Shell.Tool

/-!
# Shell processes

The state of a running shell: its variables and parameters, the files it sees, where its descriptors
lead, and what was written to the pipes it made. A computation of the shell works on that state and
may end it early.
-/

namespace InputScript.Shell

/-- Where a descriptor leads. -/
inductive Target
  /-- A pipe of the given number. -/
  | pipe (number : Nat)
  | file (names : List Octets)
  | void
deriving DecidableEq, Repr

/-- A shell while it runs. -/
structure Process where
  files : Files
  bindings : Bindings := []
  /-- The variables that programs see. -/
  exported : List Octets := []
  name : Octets := []
  parameters : List Octets := []
  /-- The status of the last command. -/
  status : Nat := 0
  /-- The status of the last command whose output was taken for a word of the current command. -/
  substituted : Option Nat := none
  functions : List (Octets × Command) := []
  /-- How many repetitions are under way. -/
  rounds : Nat := 0
  /-- The options that are on, by letter. -/
  options : List Char := []
  /-- The variables that keep their values. -/
  fixed : List Octets := []
  /-- The variables that the current function made its own, with their values outside of it; a dash stands
  for the options. -/
  locals : Option (List (Octets × Option Octets)) := none
  /-- What to run on a signal. Zero is the end of the shell. -/
  traps : List (Nat × Octets) := []
  /-- The signals that came while there was something to run on them. -/
  pending : List Nat := []
  /-- Whether the status is looked at, so that a failure is none of the script. -/
  tested : Bool := false
  /-- What is left to read. -/
  input : Octets := []
  /-- Where the descriptors lead; one that is missing is closed. -/
  targets : List (Nat × Target) := []
  /-- What was written to each pipe. -/
  pipes : List Octets := []

/-- How a computation of the shell ends before its time. -/
inductive Stop
  | exit (status : Nat)
  | killed (signal : Nat)
  /-- Leaves so many enclosing repetitions. -/
  | leave (levels : Nat)
  /-- Goes on with the next round of a repetition so many levels up. -/
  | again (levels : Nat)
  /-- Returns from a function. -/
  | back (status : Nat)
  /-- The bound on the depth was reached. -/
  | exhausted
deriving DecidableEq, Repr

/-- A computation of the shell. -/
abbrev Eval := ExceptT Stop (StateM Process)

/-- The number every shell has for itself. -/
def processNumber : Nat := 4711

/-- The separators of words unless the script sets others. -/
def usualSeparators : Octets := [' ', '\t', '\n']

/-- Where programs are looked for unless the script says otherwise. -/
def usualPath : Octets := "/usr/local/sbin:/usr/local/bin:/usr/sbin:/usr/bin:/sbin:/bin".toList

/-- The letters of options in the order in which they are shown. -/
def optionLetters : List Char := "ubaCEVvxsnmiIfe".toList

namespace Process

/-- Whether an option is on. -/
def has (p : Process) (option : Char) : Bool := p.options.contains option

/-- The separators of words. -/
def separators (p : Process) : Octets :=
  (p.bindings.lookup "IFS".toList).getD usualSeparators

/-- The variables that programs see. -/
def environment (p : Process) : Bindings :=
  p.bindings.filter fun (name, _) => p.exported.contains name

/-- Sets a variable. -/
def assign (p : Process) (name value : Octets) : Process :=
  { p with bindings := p.bindings.set name value }

/-- The value of a parameter. -/
def parameter? (p : Process) (name : Octets) : Option Octets :=
  match name with
  | ['#'] => some (Text.decimal p.parameters.length).toList
  | ['?'] => some (Text.decimal p.status).toList
  | ['$'] => some (Text.decimal processNumber).toList
  | ['-'] => some (optionLetters.filter p.options.contains)
  | ['!'] => none
  | ['@'] | ['*'] => some (List.intercalate [' '] p.parameters)
  | _ =>
    match (String.ofList name).toNat?, name.head?.any Char.isDigit with
    | some 0, true => some p.name
    | some n, true => p.parameters[n - 1]?
    | _, _ => p.bindings.lookup name

/-- Writes to a descriptor. -/
def write (p : Process) (descriptor : Nat) (text : Octets) : Process :=
  match p.targets.lookup descriptor with
  | some (.pipe number) => { p with pipes := p.pipes.modify number (· ++ text) }
  | some (.file names) => { p with files := p.files.append names text }
  | some .void | none => p

/-- Makes a descriptor lead elsewhere; without a target it is closed. -/
def direct (p : Process) (descriptor : Nat) (target : Option Target) : Process :=
  let others := p.targets.filter (·.1 != descriptor)
  { p with targets := match target with
      | some target => (descriptor, target) :: others
      | none => others }

/-- A process goes on after a part of its work was done by a copy of itself: files, pipes and input
are shared, all else is as before. -/
def resume (before after : Process) : Process :=
  { before with
    files := { before.files with root := after.files.root }
    pipes := after.pipes
    input := after.input
    status := after.status }

end Process

namespace Eval

/-- Complains on the error descriptor. -/
def complain (text : String) : Eval Unit :=
  modify (·.write 2 (text ++ "\n").toList)

/-- Complains and ends the shell as for a malformed script. -/
def abort {α : Type} (text : String) : Eval α := do
  complain text
  throw (.exit 2)

def setStatus (status : Nat) : Eval Unit := modify ({ · with status })

/-- Gives a variable a value, which must not be fixed. -/
def assign (name value : Octets) : Eval Unit := do
  let p ← get
  if p.fixed.contains name then abort (String.ofList name ++ ": is read only")
  let p := p.assign name value
  set (if p.has 'a' then { p with exported := name :: p.exported } else p)

/-- Does something whose status is looked at or not. -/
def withTested (tested : Bool) (body : Eval Unit) : Eval Unit := do
  let before := (← get).tested
  modify ({ · with tested })
  let ended ← tryCatch (do body; pure none) fun stop => pure (some stop)
  modify ({ · with tested := before })
  match ended with
  | some stop => throw stop
  | none => pure ()

/-- Ends the shell on a failure that nothing looks at, if that is asked for. -/
def checkFailure : Eval Unit := do
  let p ← get
  if p.has 'e' && !p.tested && p.status != 0 then throw (.exit p.status)

/-- Does a part of the work in a copy of the shell. What ends the copy does not end the shell, unless
the shell itself is killed. -/
def isolated (body : Eval Unit) : Eval Unit := do
  let before ← get
  let ended ← tryCatch (do body; pure none) fun stop => pure (some stop)
  let after ← get
  set (before.resume after)
  match ended with
  | some (.exit status) | some (.back status) => setStatus status
  | some (.killed signal) => throw (.killed signal)
  | some .exhausted => throw .exhausted
  | some (.leave _) | some (.again _) | none => pure ()

/-- Runs a computation with its output going to a new pipe, and gives what was written there. -/
def piped (body : Eval Unit) : Eval Octets := do
  let before ← get
  let number := before.pipes.length
  set ({ before with pipes := before.pipes ++ [[]] }.direct 1 (some (.pipe number)))
  body
  modify ({ · with targets := before.targets })
  return (← get).pipes.getD number []

end Eval

/-! ## Fields -/

/-- A part of an expanded word. -/
inductive Item
  /-- An octet, and whether it may separate words. -/
  | glyph (g : Glyph) (separates : Bool)
  /-- Something quoted: there is a word here even if it is empty. -/
  | presence
  /-- The end of a word. -/
  | boundary
deriving DecidableEq, Repr

namespace Item

/-- Items for the value of an expansion. -/
def ofValue (quoted : Bool) (value : Octets) : List Item :=
  if quoted then .presence :: value.map fun c => .glyph ⟨c, true⟩ false
  else value.map fun c => .glyph ⟨c, false⟩ true

/-- The glyphs of a word that is not split. -/
def glyphs (items : List Item) : List Glyph :=
  items.filterMap fun
    | .glyph g _ => some g
    | .presence => none
    | .boundary => some ⟨' ', true⟩

/-- The octets of a word that is not split. -/
def octets (items : List Item) : Octets := plain (glyphs items)

/-- A field whose glyphs are collected last first. -/
def finished (current : Option (List Glyph)) : List (List Glyph) := current.toList.map List.reverse

/-- Splits a word into fields. The current field, whose glyphs are collected last first, is `none`
between fields; `closed` says that the last field was ended by a blank, to which one other separator
may still belong. -/
def split (separators : Octets) : Option (List Glyph) → Bool → List Item → List (List Glyph)
  | current, _, [] => finished current
  | current, closed, .presence :: rest => split separators (some (current.getD [])) closed rest
  | current, _, .boundary :: rest => finished current ++ split separators none false rest
  | current, closed, .glyph g separates :: rest =>
    if separates && separators.contains g.char then
      if usualSeparators.contains g.char then
        finished current ++ split separators none (closed || current.isSome) rest
      else
        match current, closed with
        | none, true => split separators none false rest
        | _, _ => (current.getD []).reverse :: split separators none false rest
    else split separators (some (g :: current.getD [])) false rest

/-- The fields of a word, patterns replaced by the paths they match. -/
def fields (p : Process) (items : List Item) : List Octets :=
  (split p.separators none false items).flatMap fun field =>
    if p.has 'f' then [plain field] else Pattern.paths p.files field

end Item

end InputScript.Shell
