import InputScript.Number.Literal
import InputScript.Report

/-!
# Conditions

The condition of an `if` is a list of words: numbers, comparisons, the connectives `-and`, `-or` and
`-not`, and parentheses. It is evaluated in one scan from left to right with a stack of operators and
a stack of operands, both bounded by the same limit. Operands are numbers; a comparison or
connective gives one or zero.

`-not` binds tightest, then the comparisons, then `-and`, then `-or`; operators of equal strength
group to the left. Each reduction is recorded for the journal.
-/

namespace InputScript.Condition

/-- The operators of a condition. -/
inductive Operator
  | not
  | eq
  | ne
  | lt
  | gt
  | le
  | ge
  | and
  | or
deriving DecidableEq, Repr

namespace Operator

def all : List Operator := [.not, .eq, .ne, .lt, .gt, .le, .ge, .and, .or]

def token : Operator → String
  | .not => "-not"
  | .eq => "-eq"
  | .ne => "-ne"
  | .lt => "-lt"
  | .gt => "-gt"
  | .le => "-le"
  | .ge => "-ge"
  | .and => "-and"
  | .or => "-or"

def ofToken? (s : String) : Option Operator := all.find? (·.token == s)

/-- The higher, the tighter the operator binds. -/
def precedence : Operator → Nat
  | .not => 4
  | .eq | .ne | .lt | .gt | .le | .ge => 3
  | .and => 2
  | .or => 1

def isUnary : Operator → Bool
  | .not => true
  | _ => false

/-- The truth of an operator on its operands; a unary operator looks at the second only. -/
def holds (op : Operator) (a b : Binary64) : Bool :=
  match op with
  | .not => b.eq 0
  | .eq => a.eq b
  | .ne => !a.eq b
  | .lt => a.lt b
  | .gt => b.lt a
  | .le => a.le b
  | .ge => b.le a
  | .and => !a.eq 0 && !b.eq 0
  | .or => !a.eq 0 || !b.eq 0

end Operator

/-- A truth value as an operand. -/
def ofBool (b : Bool) : Binary64 := if b then 1 else 0

/-- What is wrong with a condition. -/
inductive Complaint
  | tooComplex
  | missingOperator (token : String)
  | missingValue (token : String)
  | unmatched
  | unparsable (token : String)
  | missingLast
  /-- An operator without its operands. -/
  | starved (op : Operator)
  /-- Operands without an operator. -/
  | surplus
deriving DecidableEq, Repr

def Complaint.message : Complaint → String
  | .tooComplex => "condition complexity exceeded"
  | .missingOperator token => "missing operator before '" ++ token ++ "'"
  | .missingValue token => "missing value before '" ++ token ++ "'"
  | .unmatched => "unmatched parentheses"
  | .unparsable token => "error parsing value '" ++ token ++ "'"
  | .missingLast => "missing value at end of condition"
  | .starved op => "missing value in operator " ++ op.token
  | .surplus => "invalid expression"

/-- A condition that cannot be evaluated: the verb it belongs to, the complaint and the words. -/
structure Fault where
  verb : String
  complaint : Complaint
  tokens : List String
deriving DecidableEq, Repr

def Fault.report (f : Fault) : Report :=
  { kind := .invalidExpression
    message := f.verb ++ ": " ++ f.complaint.message
    context := [("condition", .text (" ".intercalate f.tokens))] }

/-- One reduction: the operator, its operands from left to right, and the result. -/
structure Reduction where
  op : Operator
  args : List Binary64
  result : Binary64
deriving DecidableEq, Repr

/-- An entry of the operator stack. -/
inductive Pending
  | paren
  | op (op : Operator)
deriving DecidableEq, Repr

/-- The state of the scan; both stacks have their top first, the reductions their last first. -/
structure State where
  ops : List Pending := []
  values : List Binary64 := []
  expectOperand : Bool := true
  steps : List Reduction := []
deriving DecidableEq, Repr

/-- A scan that stopped, with the reductions done before. -/
structure Stop where
  trouble : Trouble Complaint
  steps : List Reduction
deriving DecidableEq, Repr

namespace State

/-- Stops the scan with a complaint. -/
def complain {α : Type} (s : State) (c : Complaint) : Except Stop α :=
  .error ⟨.fault c, s.steps⟩

/-- Pushes an operator or a parenthesis within the limit. -/
def pushOp (s : State) (limit : Nat) (p : Pending) : Except Stop State :=
  if limit ≤ s.ops.length then s.complain .tooComplex else .ok { s with ops := p :: s.ops }

/-- Pushes an operand within the limit. -/
def pushValue (s : State) (limit : Nat) (x : Binary64) : Except Stop State :=
  if limit ≤ s.values.length then s.complain .tooComplex
  else .ok { s with values := x :: s.values }

/-- Applies an operator, already taken off its stack, to the topmost operands. -/
def apply (s : State) (op : Operator) : Except Stop State :=
  match op.isUnary, s.values with
  | true, b :: values =>
    let result := ofBool (op.holds 0 b)
    .ok { s with values := result :: values, steps := ⟨op, [b], result⟩ :: s.steps }
  | false, b :: a :: values =>
    let result := ofBool (op.holds a b)
    .ok { s with values := result :: values, steps := ⟨op, [a, b], result⟩ :: s.steps }
  | _, _ => s.complain (.starved op)

/-- Applies the operators above the innermost parenthesis that bind at least as tightly as
`least`. -/
def reduce (least : Nat) (s : State) : List Pending → Except Stop State
  | .op op :: ops =>
    if least ≤ op.precedence then
      match ({ s with ops } : State).apply op with
      | .error stop => .error stop
      | .ok s => reduce least s ops
    else .ok { s with ops := .op op :: ops }
  | ops => .ok { s with ops }

/-- Ends a group: applies what is inside and drops its parenthesis. -/
def closeGroup (s : State) : Except Stop State :=
  match s.reduce 0 s.ops with
  | .error stop => .error stop
  | .ok s =>
    match s.ops with
    | .paren :: ops => .ok { s with ops }
    | _ => s.complain .unmatched

/-- Takes one word. -/
def take (s : State) (limit : Nat) (token : String) : Except Stop State :=
  if token == "(" then
    if s.expectOperand then s.pushOp limit .paren else s.complain (.missingOperator token)
  else if token == ")" then
    if s.expectOperand then s.complain (.missingValue token) else s.closeGroup
  else
    match Operator.ofToken? token with
    | some op =>
      if op.isUnary then
        if s.expectOperand then s.pushOp limit (.op op) else s.complain (.missingOperator token)
      else if s.expectOperand then s.complain (.missingValue token)
      else
        match s.reduce op.precedence s.ops with
        | .error stop => .error stop
        | .ok s =>
          match s.pushOp limit (.op op) with
          | .error stop => .error stop
          | .ok s => .ok { s with expectOperand := true }
    | none =>
      match Number.readNumber token with
      | .tooLarge => .error ⟨.crash .overflow, s.steps⟩
      | .notANumber => s.complain (.unparsable token)
      | .number x =>
        if s.expectOperand then
          match s.pushValue limit x with
          | .error stop => .error stop
          | .ok s => .ok { s with expectOperand := false }
        else s.complain (.missingOperator token)

/-- Takes the words one after the other. -/
def takeAll (limit : Nat) (s : State) : List String → Except Stop State
  | [] => .ok s
  | token :: tokens =>
    match s.take limit token with
    | .error stop => .error stop
    | .ok s => takeAll limit s tokens

/-- Ends the scan: applies what is left and gives the remaining operand. -/
def finish (s : State) : Except Stop (Bool × State) :=
  if s.expectOperand then s.complain .missingLast
  else
    match s.reduce 0 s.ops with
    | .error stop => .error stop
    | .ok s =>
      match s.ops, s.values with
      | _ :: _, _ => s.complain .unmatched
      | [], [x] => .ok (!x.eq 0, s)
      | [], _ => s.complain .surplus

end State

/-- Evaluates a condition: its truth or what stops it, and the reductions done. -/
def evaluate (tokens : List String) (limit : Nat) : Except (Trouble Complaint) Bool × List Reduction :=
  match State.takeAll limit {} tokens with
  | .error stop => (.error stop.trouble, stop.steps.reverse)
  | .ok s =>
    match s.finish with
    | .error stop => (.error stop.trouble, stop.steps.reverse)
    | .ok (truth, s) => (.ok truth, s.steps.reverse)

end InputScript.Condition
