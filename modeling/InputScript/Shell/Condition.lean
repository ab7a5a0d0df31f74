import InputScript.Files
import InputScript.Shell.Arithmetic

/-!
# The test command

Conditions on strings, integers and files. With up to four arguments their number alone decides what
they mean; longer conditions are joined by `-a` and `-o`.
-/

namespace InputScript.Shell.Condition

/-- The tests of one argument. -/
def unary? (files : Files) (op : String) (arg : Octets) : Option Bool :=
  let onNode (f : Node → Bool) : Option Bool :=
    match files.get arg with
    | .ok node => some (f node)
    | .error _ => some false
  match op with
  | "-n" => some !arg.isEmpty
  | "-z" => some arg.isEmpty
  | "-e" | "-r" | "-w" => onNode fun _ => true
  | "-f" => onNode fun
    | .file _ _ | .program _ => true
    | _ => false
  | "-d" => onNode Node.isDirectory
  | "-x" => onNode fun
    | .file _ executable => executable
    | .directory _ | .program _ => true
    | .void => false
  | "-s" => onNode fun
    | .file content _ => !content.isEmpty
    | .void => false
    | _ => true
  | "-c" => onNode fun
    | .void => true
    | _ => false
  | "-t" | "-L" | "-h" | "-b" | "-p" | "-S" | "-u" | "-g" | "-k" => some false
  | _ => none

/-- The tests of two arguments; `none` if there is no such test, and an inner `none` if an argument is
no integer. -/
def binary? (op : String) (a b : Octets) : Option (Option Bool) :=
  let onIntegers (f : Int → Int → Bool) : Option (Option Bool) :=
    match a.isEmpty || b.isEmpty, Arithmetic.integerOf a, Arithmetic.integerOf b with
    | false, .ok x, .ok y => some (some (f x y))
    | _, _, _ => some none
  match op with
  | "=" | "==" => some (some (a == b))
  | "!=" => some (some (a != b))
  | "<" => some (some (a != b && Octets.le a b))
  | ">" => some (some (a != b && Octets.le b a))
  | "-eq" => onIntegers (· == ·)
  | "-ne" => onIntegers (· != ·)
  | "-lt" => onIntegers (· < ·)
  | "-le" => onIntegers (· ≤ ·)
  | "-gt" => onIntegers (· > ·)
  | "-ge" => onIntegers (· ≥ ·)
  | _ => none

/-- Splits a list at the first occurrence of a word. -/
def splitAt? (word : Octets) : List Octets → Option (List Octets × List Octets)
  | [] => none
  | w :: rest =>
    if w = word then some ([], rest)
    else (splitAt? word rest).map fun (before, after) => (w :: before, after)

/-- The truth of a condition; `none` if it is malformed. -/
def evaluate (files : Files) : Nat → List Octets → Option Bool
  | 0, _ => none
  | _ + 1, [] => some false
  | _ + 1, [a] => some !a.isEmpty
  | fuel + 1, args =>
    let general : Option Bool :=
      match splitAt? ['-', 'o'] args with
      | some (before@(_ :: _), after) => do
        let x ← evaluate files fuel before
        let y ← evaluate files fuel after
        return x || y
      | _ =>
        match splitAt? ['-', 'a'] args with
        | some (before@(_ :: _), after) => do
          let x ← evaluate files fuel before
          let y ← evaluate files fuel after
          return x && y
        | _ =>
          match args with
          | ['!'] :: rest => (evaluate files fuel rest).map (!·)
          | _ => none
    match args with
    | [op, a] =>
      if op = ['!'] then some a.isEmpty else unary? files (String.ofList op) a
    | [a, op, b] =>
      match binary? (String.ofList op) a b with
      | some answer => answer
      | none => if a = ['('] && b = [')'] then some !op.isEmpty else general
    | _ => general

end InputScript.Shell.Condition
