import InputScript.Text.Blank

/-!
# Refused lines

A line must stay one simple command: unquoted pipes, redirections, lists and groups are refused, and
so are quotes and substitutions that do not end. Inside a substitution everything is let through,
since the shell that performs it will judge it. An unquoted `#` at the start of a word begins a
comment, which is cut off.

The scan keeps the open quote, the closers still expected, and whether the next character starts a
word.
-/

namespace InputScript.Word

/-- The quote that is open. -/
inductive Quote
  | none
  | single
  | double
deriving DecidableEq, Repr

/-- Why a line is refused. -/
inductive CheckFault
  | illegal (c : Char)
  | openQuote (c : Char)
  | openBacktick
  | openSubstitution (closer : Char)
deriving DecidableEq, Repr

def CheckFault.message : CheckFault → String
  | .illegal c => "illegal occurrence of '" ++ String.singleton c ++ "'"
  | .openQuote c => "unterminated " ++ String.singleton c ++ " quote"
  | .openBacktick => "unterminated ` substitution"
  | .openSubstitution closer =>
    "unterminated substitution, missing '" ++ String.singleton closer ++ "'"

/-- Unquoted characters that are refused outside a substitution. -/
def isSpecial (c : Char) : Bool :=
  ['|', '&', ';', '<', '>', '(', ')', '\x7b', '\x7d'].contains c

/-- The closer of a bracket that opens a group or substitution. -/
def closer? (c : Char) : Option Char :=
  if c == '(' then some ')' else if c == '\x7b' then some '\x7d' else none

/-- Where the scan is. -/
structure Scan where
  quote : Quote := .none
  closers : List Char := []
  backtick : Bool := false
  wordStart : Bool := true
deriving DecidableEq, Repr

namespace Scan

/-- The verdict on a line that ends here. -/
def finish (s : Scan) : Except CheckFault Unit :=
  match s.quote, s.backtick, s.closers with
  | .single, _, _ => .error (.openQuote '\'')
  | .double, _, _ => .error (.openQuote '"')
  | .none, true, _ => .error .openBacktick
  | .none, false, closer :: _ => .error (.openSubstitution closer)
  | .none, false, [] => .ok ()

/-- Drops the innermost closer if it is the given character. -/
def close (s : Scan) (c : Char) : Scan :=
  match s.closers with
  | top :: closers => if top == c then { s with closers } else s
  | [] => s

/-- One character that is neither escaped, nor the start of a substitution, nor the start of a
comment. -/
def step (s : Scan) (c : Char) : Except CheckFault Scan :=
  let inside := { s with wordStart := false }
  match s.quote with
  | .single => .ok (if c == '\'' then { inside with quote := .none } else inside)
  | .double => .ok (if c == '"' then { inside with quote := .none } else inside.close c)
  | .none =>
    if c == '\'' then .ok { inside with quote := .single }
    else if c == '"' then .ok { inside with quote := .double }
    else if c == '`' then .ok { inside with backtick := !s.backtick }
    else if !s.closers.isEmpty || s.backtick then
      match closer? c with
      | some closer => .ok { inside with closers := closer :: s.closers }
      | none => .ok (inside.close c)
    else if c == ' ' || c == '\t' then .ok { s with wordStart := true }
    else if isSpecial c then .error (.illegal c)
    else .ok inside

/-- Whether a backslash escapes the next character here. -/
def escapes (s : Scan) (c : Char) : Bool := c == '\\' && s.quote != .single

/-- Whether a comment starts here. -/
def startsComment (s : Scan) (c : Char) : Bool :=
  c == '#' && s.wordStart && s.quote == .none && s.closers.isEmpty && !s.backtick

/-- The closer of a substitution that starts with these two characters here. -/
def substitution? (s : Scan) (c d : Char) : Option Char :=
  if c == '$' && s.quote != .single then closer? d else none

end Scan

/-- Scans a line. The answer is the part before the comment, last character first, or `none` if
there is no comment. -/
def check (s : Scan) (seen : List Char) : List Char → Except CheckFault (Option (List Char))
  | [] => do
    s.finish
    return none
  | [c] => do
    if s.escapes c then
      ({ s with wordStart := false } : Scan).finish
      return none
    else if s.startsComment c then return some seen
    else
      let s ← s.step c
      s.finish
      return none
  | c :: d :: rest =>
    if s.escapes c then check { s with wordStart := false } (d :: c :: seen) rest
    else
      match s.substitution? c d with
      | some closer =>
        check { s with closers := closer :: s.closers, wordStart := false } (d :: c :: seen) rest
      | none =>
        if s.startsComment c then .ok (some seen)
        else
          match s.step c with
          | .error fault => .error fault
          | .ok s => check s (c :: seen) (d :: rest)

/-- The command of a line: the line without its comment, or the reason to refuse it. -/
def command (text : String) : Except CheckFault String :=
  match check {} [] text.toList with
  | .error fault => .error fault
  | .ok none => .ok text
  | .ok (some seen) => .ok (Text.trimEnd (String.ofList seen.reverse))

end InputScript.Word
