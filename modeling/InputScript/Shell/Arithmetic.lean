import InputScript.Text.Digit
import InputScript.Text.Octet

/-!
# Shell arithmetic

Expressions over 64-bit integers and variables: the operators of C without increments and commas,
assignments included. A variable counts as the integer its value spells, an unset or blank one as zero.
The operands that the logical and the conditional operators skip are not evaluated.
-/

namespace InputScript.Shell

/-- Variables with their values. -/
abbrev Bindings := List (Octets × Octets)

/-- Sets a variable, in place if it exists. -/
def Bindings.set (bindings : Bindings) (name value : Octets) : Bindings :=
  if bindings.any (·.1 == name) then
    bindings.map fun b => if b.1 == name then (name, value) else b
  else bindings ++ [(name, value)]

namespace Arithmetic

/-- Operators of two operands that are always evaluated. -/
inductive Operator
  | bitOr | bitXor | bitAnd
  | eq | ne | lt | le | gt | ge
  | shiftLeft | shiftRight
  | add | sub | mul | div | mod
deriving DecidableEq, Repr

/-- Operators of one operand. -/
inductive Sign
  | plus | minus | not | complement
deriving DecidableEq, Repr

inductive Expr
  | number (n : Int)
  | variable (name : Octets)
  | signed (sign : Sign) (e : Expr)
  | binary (op : Operator) (a b : Expr)
  | both (a b : Expr)
  | either (a b : Expr)
  | choose (condition a b : Expr)
  | assign (name : Octets) (op : Option Operator) (e : Expr)
deriving Repr

inductive Token
  | number (n : Int)
  | name (x : Octets)
  | sign (s : String)
deriving DecidableEq, Repr

/-- Why an expression has no value. -/
inductive Fault
  | malformed
  | illegalNumber
  | divisionByZero
deriving DecidableEq, Repr

/-- Brings a value into the range of 64-bit integers. -/
def wrap (n : Int) : Int := n.bmod 0x10000000000000000

/-- The value of the digits at the start of a text, and the rest. -/
def digitRun? (base : Nat) (cs : Octets) : Option (Nat × Octets) :=
  let digits := cs.takeWhile fun c => (Text.positionalValue? c).any (· < base)
  if digits.isEmpty then none
  else
    let value := digits.foldl (fun n c => n * base + (Text.positionalValue? c).getD 0) 0
    some (value, cs.drop digits.length)

/-- The digits of an integer in the base that its start tells, and the rest. -/
def readDigits (cs : Octets) : Option (Nat × Octets) :=
  match cs with
  | '0' :: 'x' :: rest | '0' :: 'X' :: rest =>
    match digitRun? 16 rest with
    | some read => some read
    | none => some (0, cs.drop 1)
  | '0' :: _ => digitRun? 8 cs
  | _ => digitRun? 10 cs

/-- Largest and smallest integer. -/
def maxInteger : Int := 0x7FFFFFFFFFFFFFFF

def minInteger : Int := -0x8000000000000000

def isSpace (c : Char) : Bool := c == ' ' || (9 ≤ c.toNat && c.toNat ≤ 13)

/-- The integer that the value of a variable spells. -/
def integerOf (value : Octets) : Except Fault Int :=
  let body := value.dropWhile isSpace
  let (negative, digits) : Bool × Octets :=
    match body with
    | '-' :: rest => (true, rest)
    | '+' :: rest => (false, rest)
    | _ => (false, body)
  match readDigits digits with
  | none => if body.isEmpty then .ok 0 else .error .illegalNumber
  | some (n, rest) =>
    let n : Int := if negative then -(n : Int) else n
    if rest.all isSpace && minInteger ≤ n && n ≤ maxInteger then .ok n else .error .illegalNumber

/-- The operators, longer ones before their beginnings. -/
def signs : List String :=
  ["<<=", ">>=", "&&", "||", "==", "!=", "<=", ">=", "<<", ">>", "+=", "-=", "*=", "/=", "%=", "&=",
   "^=", "|=", "+", "-", "*", "/", "%", "<", ">", "=", "!", "~", "&", "^", "|", "(", ")", "?", ":"]

/-- The tokens of an expression; the bound is at least its length. -/
def tokensWithin : Nat → Octets → Except Fault (List Token)
  | _, [] => .ok []
  | 0, _ :: _ => .error .malformed
  | bound + 1, c :: rest =>
    if isSpace c then tokensWithin bound rest
    else if c.isDigit then
      match readDigits (c :: rest) with
      | some (n, tail) => do
        let more ← tokensWithin bound tail
        return .number (min (n : Int) maxInteger) :: more
      | none => .error .malformed
    else if Octets.startsName c then
      let name := (c :: rest).takeWhile Octets.inName
      do
        let more ← tokensWithin bound ((c :: rest).drop name.length)
        return .name name :: more
    else
      match signs.find? fun s => s.toList.isPrefixOf (c :: rest) with
      | some s => do
        let more ← tokensWithin bound ((c :: rest).drop s.length)
        return .sign s :: more
      | none => .error .malformed

/-- The binary operators with how tightly they bind. -/
def operators : List (String × Nat × Operator) :=
  [("|", 3, .bitOr), ("^", 4, .bitXor), ("&", 5, .bitAnd), ("==", 6, .eq), ("!=", 6, .ne),
   ("<", 7, .lt), ("<=", 7, .le), (">", 7, .gt), (">=", 7, .ge), ("<<", 8, .shiftLeft),
   (">>", 8, .shiftRight), ("+", 9, .add), ("-", 9, .sub), ("*", 10, .mul), ("/", 10, .div),
   ("%", 10, .mod)]

/-- The operator of an assignment; none for a plain one. -/
def assignment? (s : String) : Option (Option Operator) :=
  if s == "=" then some none
  else
    match s.toList.getLast? with
    | some '=' => (operators.lookup (String.ofList s.toList.dropLast)).map fun (_, op) => some op
    | _ => none

/-- How a binary operator joins its operands. -/
def join? (s : String) : Option (Nat × (Expr → Expr → Expr)) :=
  if s == "||" then some (1, .either)
  else if s == "&&" then some (2, .both)
  else (operators.lookup s).map fun (level, op) => (level, .binary op)

mutual

/-- Reads an assignment or a conditional expression. -/
def readExpr : Nat → List Token → Except Fault (Expr × List Token)
  | 0, _ => .error .malformed
  | fuel + 1, tokens =>
    match tokens with
    | .name x :: .sign s :: rest =>
      match if s == "==" || s == "<=" || s == ">=" || s == "!=" then none else assignment? s with
      | some op => do
        let (e, rest) ← readExpr fuel rest
        return (.assign x op e, rest)
      | none => readChoice fuel tokens
    | _ => readChoice fuel tokens

/-- Reads a conditional expression. -/
def readChoice : Nat → List Token → Except Fault (Expr × List Token)
  | 0, _ => .error .malformed
  | fuel + 1, tokens => do
    let (first, rest) ← readOperand fuel tokens
    let (condition, rest) ← readBinary fuel 1 first rest
    match rest with
    | .sign "?" :: rest =>
      let (a, rest) ← readExpr fuel rest
      match rest with
      | .sign ":" :: rest =>
        let (b, rest) ← readChoice fuel rest
        return (.choose condition a b, rest)
      | _ => throw .malformed
    | _ => return (condition, rest)

/-- Extends an operand by the binary operators that bind at least as tightly as the given level. -/
def readBinary : Nat → Nat → Expr → List Token → Except Fault (Expr × List Token)
  | 0, _, _, _ => .error .malformed
  | fuel + 1, level, left, tokens =>
    match tokens with
    | .sign s :: rest =>
      match join? s with
      | some (tightness, join) =>
        if level ≤ tightness then do
          let (operand, rest) ← readOperand fuel rest
          let (right, rest) ← readBinary fuel (tightness + 1) operand rest
          readBinary fuel level (join left right) rest
        else .ok (left, tokens)
      | none => .ok (left, tokens)
    | _ => .ok (left, tokens)

/-- Reads an operand with its signs. -/
def readOperand : Nat → List Token → Except Fault (Expr × List Token)
  | 0, _ => .error .malformed
  | fuel + 1, tokens =>
    let signed (sign : Sign) (rest : List Token) := do
      let (e, rest) ← readOperand fuel rest
      return (.signed sign e, rest)
    match tokens with
    | .number n :: rest => .ok (.number n, rest)
    | .name x :: rest => .ok (.variable x, rest)
    | .sign "+" :: rest => signed .plus rest
    | .sign "-" :: rest => signed .minus rest
    | .sign "!" :: rest => signed .not rest
    | .sign "~" :: rest => signed .complement rest
    | .sign "(" :: rest => do
      let (e, rest) ← readExpr fuel rest
      match rest with
      | .sign ")" :: rest => return (e, rest)
      | _ => throw .malformed
    | _ => .error .malformed

end

/-- Reads a whole expression. -/
def parse (text : Octets) : Except Fault Expr := do
  let tokens ← tokensWithin text.length text
  let (e, rest) ← readExpr (8 * tokens.length + 8) tokens
  if rest.isEmpty then return e else throw .malformed

def ofBool (b : Bool) : Int := if b then 1 else 0

/-- The two's complement pattern of a value. -/
def toPattern (n : Int) : Nat := (n % 0x10000000000000000).toNat

/-- The value of an operator. -/
def Operator.apply (op : Operator) (a b : Int) : Except Fault Int :=
  let onPatterns (f : Nat → Nat → Nat) : Int := wrap (f (toPattern a) (toPattern b))
  match op with
  | .bitOr => .ok (onPatterns (· ||| ·))
  | .bitXor => .ok (onPatterns (· ^^^ ·))
  | .bitAnd => .ok (onPatterns (· &&& ·))
  | .eq => .ok (ofBool (a == b))
  | .ne => .ok (ofBool (a != b))
  | .lt => .ok (ofBool (a < b))
  | .le => .ok (ofBool (a ≤ b))
  | .gt => .ok (ofBool (b < a))
  | .ge => .ok (ofBool (b ≤ a))
  | .shiftLeft => .ok (wrap (a * Nat.pow 2 (toPattern b % 64)))
  | .shiftRight => .ok (a / Nat.pow 2 (toPattern b % 64))
  | .add => .ok (wrap (a + b))
  | .sub => .ok (wrap (a - b))
  | .mul => .ok (wrap (a * b))
  | .div => if b = 0 then .error .divisionByZero else .ok (wrap (a.tdiv b))
  | .mod => if b = 0 then .error .divisionByZero else .ok (a.tmod b)

def Sign.apply (n : Int) : Sign → Int
  | .plus => n
  | .minus => wrap (-n)
  | .not => ofBool (n == 0)
  | .complement => -n - 1

/-- The integer of a variable. -/
def lookup (bindings : Bindings) (name : Octets) : Except Fault Int :=
  match bindings.lookup name with
  | some value => integerOf value
  | none => .ok 0

/-- The value of an expression, and the variables after its assignments. -/
def Expr.eval (bindings : Bindings) : Expr → Except Fault (Int × Bindings)
  | .number n => .ok (n, bindings)
  | .variable name => do
    let n ← lookup bindings name
    return (n, bindings)
  | .signed sign e => do
    let (n, bindings) ← e.eval bindings
    return (sign.apply n, bindings)
  | .binary op a b => do
    let (x, bindings) ← a.eval bindings
    let (y, bindings) ← b.eval bindings
    let n ← op.apply x y
    return (n, bindings)
  | .both a b => do
    let (x, bindings) ← a.eval bindings
    if x = 0 then return (0, bindings)
    let (y, bindings) ← b.eval bindings
    return (ofBool (y != 0), bindings)
  | .either a b => do
    let (x, bindings) ← a.eval bindings
    if x ≠ 0 then return (1, bindings)
    let (y, bindings) ← b.eval bindings
    return (ofBool (y != 0), bindings)
  | .choose condition a b => do
    let (x, bindings) ← condition.eval bindings
    if x ≠ 0 then a.eval bindings else b.eval bindings
  | .assign name op e => do
    let (y, bindings) ← e.eval bindings
    let n ← match op with
      | none => pure y
      | some op => do
        let x ← lookup bindings name
        op.apply x y
    return (n, bindings.set name (Text.decimalInt n).toList)

/-- Evaluates the text of an expression. -/
def evaluate (bindings : Bindings) (text : Octets) : Except Fault (Int × Bindings) := do
  let e ← parse text
  e.eval bindings

end Arithmetic

end InputScript.Shell
