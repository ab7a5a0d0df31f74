import InputScript.Number.Literal
import InputScript.Report
import InputScript.Verb

/-!
# Invocations

A word list is bound to a verb: the first word names the verb, the options that follow are taken
for verbs that accept any, and the remaining words are the arguments. The options end at the first
word that is not an option, at a number, or at `--`, which is dropped.
-/

namespace InputScript

/-- A verb with its option values and arguments. -/
structure Invocation where
  verb : Verb
  /-- The options in the order given; a flag has no value. -/
  options : List (Switch × Option String) := []
  args : List String := []
  line : Option Nat := none
deriving DecidableEq, Repr

namespace Invocation

def name (i : Invocation) : String := i.verb.name

/-- Whether an option is present. -/
def flag (i : Invocation) (s : Switch) : Bool := (i.options.lookup s).isSome

/-- The value of an option, if it is present and has one. -/
def option (i : Invocation) (s : Switch) : Option String := (i.options.lookup s).join

/-- Why words cannot be bound. -/
inductive Fault
  | unknownCommand (name : String)
  | unknownOption (verb : Verb) (word : String)
  | duplicateOption (verb : Verb) (word : String)
  | missingParameter (verb : Verb) (word : String)
  | tooFew (verb : Verb)
  | tooMany (verb : Verb)
deriving DecidableEq, Repr

def Fault.report : Fault → Report
  | .unknownCommand name =>
    ({ kind := .unknownCommand, message := "unrecognized command '" ++ name ++ "'" } : Report)
      |>.withDetails [("verb", .text name)]
  | .unknownOption verb word =>
    ({ kind := .unknownOption, message := verb.name ++ ": unrecognized option " ++ word } : Report)
      |>.withDetails [("option", .text word)]
  | .duplicateOption verb word =>
    ({ kind := .unknownOption, message := verb.name ++ ": duplicate option " ++ word } : Report)
      |>.withDetails [("option", .text word)]
  | .missingParameter verb word =>
    { kind := .arity, message := verb.name ++ ": missing parameter for option " ++ word }
  | .tooFew verb => { kind := .arity, message := verb.name ++ ": not enough arguments" }
  | .tooMany verb => { kind := .arity, message := verb.name ++ ": too many arguments" }

/-- Whether a word ends the options. A number is an argument even with a minus sign. -/
def endsOptions (word : String) : Except Crash Bool :=
  match word.toList with
  | ['-', '-'] => .ok true
  | '-' :: _ :: _ =>
    match Number.readNumber word with
    | .number _ => .ok true
    | .notANumber => .ok false
    | .tooLarge => .error .overflow
  | _ => .ok true

/-- The option of a verb that a word names. -/
def switchOf? (verb : Verb) (word : String) : Option Switch :=
  verb.switches.find? fun s => s.name.toList == word.toList.drop 1

/-- Takes the options at the start of the words; the second part is what follows them. -/
def takeOptions (verb : Verb) (options : List (Switch × Option String)) :
    List String → Except (Trouble Fault) (List (Switch × Option String) × List String)
  | [] => .ok (options, [])
  | word :: rest =>
    match endsOptions word with
    | .error crash => .error (.crash crash)
    | .ok true => .ok (options, word :: rest)
    | .ok false =>
      match switchOf? verb word with
      | none => .error (.fault (.unknownOption verb word))
      | some s =>
        if (options.lookup s).isSome then .error (.fault (.duplicateOption verb word))
        else if s.takesValue then
          match rest with
          | [] => .error (.fault (.missingParameter verb word))
          | value :: rest => takeOptions verb (options ++ [(s, some value)]) rest
        else takeOptions verb (options ++ [(s, none)]) rest

/-- Drops the mark that ends the options. -/
def dropMark : List String → List String
  | "--" :: args => args
  | args => args

/-- Checks the number of arguments. -/
def checkArity (verb : Verb) (count : Nat) : Except Fault Unit :=
  if count < verb.minArgs then .error (.tooFew verb)
  else
    match verb.maxArgs with
    | some most => if most < count then .error (.tooMany verb) else .ok ()
    | none => .ok ()

/-- The options and the arguments among the words after the verb. -/
def takeArguments (verb : Verb) (words : List String) :
    Except (Trouble Fault) (List (Switch × Option String) × List String) :=
  if verb.acceptsOptions then
    match takeOptions verb [] words with
    | .error trouble => .error trouble
    | .ok (options, rest) => .ok (options, dropMark rest)
  else .ok ([], words)

/-- Binds a word list. -/
def bind (words : List String) (line : Option Nat := none) :
    Except (Trouble Fault) Invocation :=
  match words with
  | [] => .error (.crash .noWords)
  | name :: rest =>
    match Verb.ofName? name with
    | none => .error (.fault (.unknownCommand name))
    | some verb =>
      match takeArguments verb rest with
      | .error trouble => .error trouble
      | .ok (options, args) =>
        match checkArity verb args.length with
        | .error fault => .error (.fault fault)
        | .ok () => .ok { verb, options, args, line }

end Invocation

end InputScript
