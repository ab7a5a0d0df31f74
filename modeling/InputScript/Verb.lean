/-!
# Verbs

The commands of the script language form a fixed table: name, least and greatest number of
arguments, the options accepted, and a line of help. Options with a value take the next word; the
others are flags.
-/

namespace InputScript

/-- The options any verb may take. -/
inductive Switch
  | count
  | time
  | delay
  | alternate
  | horizontal
  | detach
deriving DecidableEq, Repr

namespace Switch

/-- The name of an option, without its dash. -/
def name : Switch → String
  | .count => "repeat"
  | .time => "time"
  | .delay => "delay"
  | .alternate => "r"
  | .horizontal => "h"
  | .detach => "detach"

def all : List Switch := [.count, .time, .delay, .alternate, .horizontal, .detach]

/-- Whether the option takes the next word as its value. -/
def takesValue : Switch → Bool
  | .count | .time | .delay => true
  | _ => false

end Switch

/-- The verbs of the script language. -/
inductive Verb
  | openDevice
  | packet
  | keyDown
  | keyUp
  | key
  | move
  | wheel
  | position
  | loop
  | cond
  | otherwise
  | leave
  | close
  | exit
  | script
  | sleep
  | exec
  | echo
  | assign
deriving DecidableEq, Repr

namespace Verb

/-- All verbs, in the order of the table. -/
def all : List Verb :=
  [.openDevice, .packet, .keyDown, .keyUp, .key, .move, .wheel, .position, .loop, .cond,
   .otherwise, .leave, .close, .exit, .script, .sleep, .exec, .echo, .assign]

def name : Verb → String
  | .openDevice => "open"
  | .packet => "input"
  | .keyDown => "keydown"
  | .keyUp => "keyup"
  | .key => "key"
  | .move => "move"
  | .wheel => "wheel"
  | .position => "position"
  | .loop => "loop"
  | .cond => "if"
  | .otherwise => "else"
  | .leave => "break"
  | .close => "end"
  | .exit => "exit"
  | .script => "script"
  | .sleep => "sleep"
  | .exec => "exec"
  | .echo => "echo"
  | .assign => "set"

/-- The verb with a given name. -/
def ofName? (s : String) : Option Verb := all.find? (·.name == s)

/-- The least number of arguments. -/
def minArgs : Verb → Nat
  | .openDevice | .loop | .otherwise | .leave | .close | .exit | .echo => 0
  | _ => 1

/-- The greatest number of arguments, if there is one. -/
def maxArgs : Verb → Option Nat
  | .openDevice | .otherwise | .close | .exit => some 0
  | .wheel | .leave | .script | .sleep => some 1
  | .loop | .assign => some 2
  | .move | .position => some 3
  | .packet | .keyDown | .keyUp | .key | .cond | .exec | .echo => none

/-- The options accepted. -/
def switches : Verb → List Switch
  | .key => [.count, .time, .delay]
  | .move | .position => [.alternate]
  | .wheel => [.horizontal]
  | .loop => [.time]
  | .exec => [.detach]
  | _ => []

/-- Whether any option is accepted; otherwise words with a dash are arguments. -/
def acceptsOptions (v : Verb) : Bool := !v.switches.isEmpty

/-- Whether the verb opens a block. -/
def opensBlock : Verb → Bool
  | .loop | .cond => true
  | _ => false

def usage : Verb → String
  | .openDevice | .otherwise | .close | .exit => ""
  | .packet => "<axis>=<value>..."
  | .keyDown | .keyUp => "<key>..."
  | .key => "[-repeat <N>] [-time <seconds>] [-delay <seconds>] <key>..."
  | .move => "[-r] <delta-x> [<delta-y> [<delta-z>]]"
  | .wheel => "[-h] <delta>"
  | .position => "[-r] <pos-x> [<pos-y> [<pos-z>]]"
  | .loop => "[-time <seconds>] [<N> [<seconds>]]"
  | .cond => "<condition>"
  | .leave => "[<n>]"
  | .script => "<filename>"
  | .sleep => "<seconds>"
  | .exec => "[-detach] <command> [<arg>...]"
  | .echo => "<arg>..."
  | .assign => "<var-name> [<value>]"

def description : Verb → String
  | .openDevice => "Initialize the virtual input device."
  | .packet => "Generate a packet of input values."
  | .keyDown => "Press down specified keys."
  | .keyUp => "Release specified keys."
  | .key => "Press down and release specified keys."
  | .move => "Move pointer by specified delta."
  | .wheel => "Move wheel by specified delta."
  | .position => "Move pointer to specified absolute position."
  | .loop => "Repeat a block of commands."
  | .cond => "Execute a block of commands under condition."
  | .otherwise | .close => ""
  | .leave => "Break from one or more loops."
  | .exit => "Finish executing current script."
  | .script => "Execute commands from specified file."
  | .sleep => "Sleep for specified time."
  | .exec => "Execute specified command."
  | .echo => "Print specified arguments to standard output."
  | .assign => "Set or unset an environment variable."

end Verb

end InputScript
