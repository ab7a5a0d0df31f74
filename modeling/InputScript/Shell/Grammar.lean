import InputScript.Shell.Command

/-!
# Reading shell scripts

A script is read octet by octet: words with their quoting and expansions, simple commands with
assignments and redirections, pipelines, lists, and the compound commands. Reading either gives the
command or fails; a script that cannot be read is not run at all.

Every reader takes a bound on its depth, which a script cannot exceed if the bound is a few times the
length of the script.
-/

namespace InputScript.Shell.Grammar

/-- A reader consumes the start of a script; it fails where the script is malformed. -/
abbrev Reader := StateT Octets Option

/-- What a word is read inside of, which decides where it ends and what quotes. -/
inductive Context
  | word
  /-- The value of an assignment, where a tilde may also follow a colon. -/
  | value
  | quotes
  /-- The word of a parameter in braces, and whether that stands inside quotes. -/
  | braces (quoted : Bool)
  /-- An arithmetic expression, and how many parentheses are open in it. -/
  | arithmetic (depth : Nat)
  /-- Text that follows in lines of its own. -/
  | lines
deriving DecidableEq, Repr

namespace Context

/-- Whether text here counts as quoted. -/
def isQuoted : Context → Bool
  | .word | .value => false
  | .quotes => true
  | .braces quoted => quoted
  | .arithmetic _ | .lines => true

/-- Whether quotes and backslashes have their full meaning here. -/
def isBare : Context → Bool
  | .word | .value | .braces false => true
  | _ => false

/-- Whether what is read is a word of a command, not something inside one. -/
def isOutermost : Context → Bool
  | .word | .value => true
  | _ => false

/-- Whether the end of the text is an end here. -/
def mayEnd : Context → Bool
  | .word | .value | .lines => true
  | _ => false

end Context

def isBlank (c : Char) : Bool := c == ' ' || c == '\t'

/-- The octets that end a word. -/
def endsWord (c : Char) : Bool :=
  isBlank c || c == '\n' || c == ';' || c == '&' || c == '|' || c == '<' || c == '>' || c == '('
    || c == ')'

/-- The octets that mean nothing but themselves wherever they stand in a word. -/
def isOrdinary (c : Char) : Bool :=
  !(endsWord c || c == '\\' || c == '\'' || c == '"' || c == '`' || c == '$' || c == '\x7d')

/-- Parameters that are named by a sign. -/
def isSpecial (c : Char) : Bool :=
  c == '@' || c == '*' || c == '#' || c == '?' || c == '-' || c == '$' || c == '!'

/-- What lies ahead. -/
def ahead : Reader Octets := get

/-- Skips octets. -/
def skip (n : Nat) : Reader Unit := modify (·.drop n)

/-- Requires and skips an octet. -/
def expect (c : Char) : Reader Unit := do
  match ← ahead with
  | d :: rest => if c = d then set rest else failure
  | [] => failure

/-- Takes octets while they satisfy a test. -/
def takeWhile (test : Char → Bool) : Reader Octets := do
  let cs ← ahead
  let taken := cs.takeWhile test
  set (cs.drop taken.length)
  return taken

/-- Blanks, joined lines and comments at the start of a script dropped. -/
def dropBlanks : Octets → Octets
  | '\\' :: '\n' :: rest => dropBlanks rest
  | '#' :: rest => rest.dropWhile (· != '\n')
  | c :: rest => if isBlank c then dropBlanks rest else c :: rest
  | [] => []

def skipBlanks : Reader Unit := modify dropBlanks

/-- Blanks, comments and line ends dropped; the bound is at least the length of the script. -/
def dropLines : Nat → Octets → Octets
  | 0, cs => cs
  | bound + 1, cs =>
    match dropBlanks cs with
    | '\n' :: rest => dropLines bound rest
    | rest => rest

def skipLines : Reader Unit := modify fun cs => dropLines (cs.length + 1) cs

/-- The text up to a closing backquote, with the backslashes that protect something removed, and what
follows. -/
def backquoted (inQuotes : Bool) : Octets → Option (Octets × Octets)
  | [] => none
  | '`' :: rest => some ([], rest)
  | '\\' :: c :: rest =>
    (backquoted inQuotes rest).map fun (body, tail) =>
      if c == '`' || c == '\\' || c == '$' || (inQuotes && c == '"') then (c :: body, tail)
      else ('\\' :: c :: body, tail)
  | c :: rest => (backquoted inQuotes rest).map fun (body, tail) => (c :: body, tail)

/-- The word that ends the text after a redirection, without its quotes, whether it had any, and what
follows it. -/
def closingWord : Octets → Octets × Bool × Octets
  | [] => ([], false, [])
  | '\\' :: c :: rest =>
    let (word, _, tail) := closingWord rest
    (c :: word, true, tail)
  | c :: rest =>
    if endsWord c then ([], false, c :: rest)
    else if c == '\'' || c == '"' then
      let body := rest.takeWhile (· != c)
      let (word, _, tail) := closingWord (rest.drop (body.length + 1))
      (body ++ word, true, tail)
    else
      let (word, quoted, tail) := closingWord rest
      (c :: word, quoted, tail)
termination_by cs => cs.length

/-- The lines up to one that is the closing word, and what follows it; `trims` drops the tabs in front of
each. -/
def linesUpTo (word : Octets) (trims : Bool) : List Octets → Option (List Octets × List Octets)
  | [] => none
  | line :: rest =>
    let line := if trims then line.dropWhile (· == '\t') else line
    if line = word then some ([], rest)
    else (linesUpTo word trims rest).map fun (lines, tail) => (line :: lines, tail)

/-- Takes the lines that belong to a redirection out of the script; they start after the current
line. -/
def takeLines (word : Octets) (trims : Bool) : Reader Octets := do
  let cs ← ahead
  let line := cs.takeWhile (· != '\n')
  match linesUpTo word trims ((cs.drop (line.length + 1)).splitOn '\n') with
  | none => failure
  | some (lines, rest) =>
    set (line ++ '\n' :: List.intercalate ['\n'] rest)
    return lines.flatMap (· ++ ['\n'])

/-- Words that have a meaning of their own where a command may start. -/
def reserved : List String :=
  ["if", "then", "elif", "else", "fi", "while", "until", "do", "done", "for", "case", "esac",
   "\x7b", "\x7d", "!", "in"]

/-- The words that end a list of commands. -/
def closers : List String := ["then", "elif", "else", "fi", "do", "done", "esac", "\x7d"]

/-- The reserved word that lies ahead. -/
def reservedAhead : Reader (Option String) := do
  let word := String.ofList ((← ahead).takeWhile fun c => !endsWord c)
  return if reserved.contains word then some word else none

/-- Requires a reserved word, after blanks and line ends. -/
def expectWord (word : String) : Reader Unit := do
  skipLines
  if (← reservedAhead) = some word then skip word.length else failure

/-- Reads a name. -/
def readName : Reader Octets := do
  let name ← takeWhile Octets.inName
  if Octets.isName name then return name else failure

/-- Whether a list of commands ends here. -/
def atEnd : Reader Bool := do
  match ← ahead with
  | [] | ')' :: _ | ';' :: ';' :: _ => return true
  | _ =>
    match ← reservedAhead with
    | some word => return closers.contains word
    | none => return false

mutual

/-- Reads the parts of a word up to the end of its context, which is not consumed. -/
def readParts : Nat → Context → Bool → Reader (List Part)
  | 0, _, _ => failure
  | fuel + 1, context, atStart => do
    match ← ahead with
    | [] => if context.mayEnd then return [] else failure
    | c :: rest =>
      let quoted := context.isQuoted
      let literal (taken : Octets) (isQuoted : Bool) (tail : Octets) : Reader (List Part) := do
        set tail
        let more ← readParts fuel context (context = .value && !isQuoted && taken = [':'])
        return .text taken isQuoted :: more
      match context, c with
      | .quotes, '"' => return []
      | .braces _, '\x7d' => return []
      | .arithmetic 0, ')' => if rest.head? = some ')' then return [] else failure
      | .arithmetic (depth + 1), ')' =>
        set rest
        let more ← readParts fuel (.arithmetic depth) false
        return .text [')'] true :: more
      | .arithmetic depth, '(' =>
        set rest
        let more ← readParts fuel (.arithmetic (depth + 1)) false
        return .text ['('] true :: more
      | .arithmetic _, '"' | .lines, '"' => literal ['"'] true rest
      | _, _ =>
        if context.isOutermost && endsWord c then return []
        else if c = '\\' then
          match rest with
          | [] => literal ['\\'] true []
          | '\n' :: tail =>
            set tail
            readParts fuel context atStart
          | d :: tail =>
            if context.isBare || d == '$' || d == '`' || d == '\\' || (d == '"' && context != .lines)
                || (context = .braces true && d == '\x7d') then literal [d] true tail
            else literal ['\\', d] true tail
        else if c = '\'' && context.isBare then
          let body := rest.takeWhile (· != '\'')
          match rest.drop body.length with
          | _ :: tail => literal body true tail
          | [] => failure
        else if c = '"' then
          set rest
          let inner ← readParts fuel .quotes false
          expect '"'
          let more ← readParts fuel context false
          return (if inner.isEmpty then [.text [] true] else inner) ++ more
        else if c = '`' then
          let (body, tail) ← (backquoted quoted rest : Option _)
          let (command, left) ← ((readList fuel).run body : Option _)
          if !left.isEmpty then failure
          set tail
          let more ← readParts fuel context false
          return .output command quoted :: more
        else if c = '$' then
          set rest
          let part ← readDollar fuel quoted
          let more ← readParts fuel context false
          return part :: more
        else if c = '~' && atStart && context.isBare then
          let user := rest.takeWhile fun d => Octets.inName d || d == '-' || d == '.'
          let tail := rest.drop user.length
          match tail with
          | [] =>
            set tail
            return [.home user]
          | d :: _ =>
            if d == '/' || (context = .value && d == ':')
                || (if context.isOutermost then endsWord d else d == '\x7d') then
              set tail
              let more ← readParts fuel context false
              return .home user :: more
            else literal ['~'] false rest
        else if context = .value && c = ':' then literal [':'] false rest
        else
          let run := rest.takeWhile fun d => isOrdinary d && !(context = .value && d == ':')
          literal (c :: run) quoted (rest.drop run.length)

/-- Reads an expansion after its dollar sign. -/
def readDollar : Nat → Bool → Reader Part
  | 0, _ => failure
  | fuel + 1, quoted => do
    match ← ahead with
    | '(' :: '(' :: rest =>
      set rest
      let expression ← readParts fuel (.arithmetic 0) false
      skip 2
      return .arithmetic expression quoted
    | '(' :: rest =>
      set rest
      let body ← readList fuel
      expect ')'
      return .output body quoted
    | '\x7b' :: rest =>
      set rest
      readBraces fuel quoted
    | c :: rest =>
      if Octets.startsName c then
        let name ← takeWhile Octets.inName
        return .parameter name .value quoted
      else if c.isDigit || isSpecial c then
        set rest
        return .parameter [c] .value quoted
      else return .text ['$'] quoted
    | [] => return .text ['$'] quoted

/-- Reads a parameter in braces after the opening one. -/
def readBraces : Nat → Bool → Reader Part
  | 0, _ => failure
  | fuel + 1, quoted => do
    let malformed (taken : Nat) : Reader Part := do
      skip taken
      let _ ← readParts fuel (.braces quoted) false
      expect '\x7d'
      return .parameter [] .malformed quoted
    let lengthOf (name : Octets) : Reader Part := do
      match ← ahead with
      | '\x7d' :: rest =>
        set rest
        return .parameter name .length quoted
      | _ => malformed 0
    match ← ahead with
    | '#' :: c :: rest =>
      if Octets.startsName c then
        skip 1
        lengthOf (← takeWhile Octets.inName)
      else if c.isDigit then
        skip 1
        lengthOf (← takeWhile Char.isDigit)
      else if c != '\x7d' && rest.head? = some '\x7d' then
        if isSpecial c then
          set rest
          lengthOf [c]
        else
          set rest
          malformed 0
      else
        skip 1
        readForm fuel ['#'] quoted
    | c :: rest =>
      if Octets.startsName c then
        let name ← takeWhile Octets.inName
        readForm fuel name quoted
      else if c.isDigit then
        let name ← takeWhile Char.isDigit
        readForm fuel name quoted
      else if isSpecial c then
        set rest
        readForm fuel [c] quoted
      else malformed (if c = '\x7d' then 0 else 1)
    | [] => failure

/-- Reads what follows the name of a parameter in braces. -/
def readForm : Nat → Octets → Bool → Reader Part
  | 0, _, _ => failure
  | fuel + 1, name, quoted => do
    let word (form : Word → Form) (taken : Nat) : Reader Part := do
      skip taken
      let parts ← readParts fuel (.braces quoted) true
      expect '\x7d'
      return .parameter name (form parts) quoted
    let pattern (form : Word → Form) (taken : Nat) : Reader Part := do
      skip taken
      let parts ← readParts fuel (.braces false) true
      expect '\x7d'
      return .parameter name (form parts) quoted
    match ← ahead with
    | '\x7d' :: rest =>
      set rest
      return .parameter name .value quoted
    | ':' :: '-' :: _ => word (.fallback true) 2
    | ':' :: '=' :: _ => word (.assign true) 2
    | ':' :: '?' :: _ => word (.require true) 2
    | ':' :: '+' :: _ => word (.alternative true) 2
    | ':' :: _ => word (fun _ => .malformed) 2
    | '-' :: _ => word (.fallback false) 1
    | '=' :: _ => word (.assign false) 1
    | '?' :: _ => word (.require false) 1
    | '+' :: _ => word (.alternative false) 1
    | '#' :: '#' :: _ => pattern (.trimStart true) 2
    | '#' :: _ => pattern (.trimStart false) 1
    | '%' :: '%' :: _ => pattern (.trimEnd true) 2
    | '%' :: _ => pattern (.trimEnd false) 1
    | _ => word (fun _ => .malformed) 1

/-- Reads a word, which has to be there. -/
def readWord : Nat → Reader Word
  | 0 => failure
  | fuel + 1 => do
    let before ← ahead
    let parts ← readParts fuel .word true
    if (← ahead).length = before.length then failure
    return parts

/-- Reads a redirection at its sign. -/
def readRedirection : Nat → Option Nat → Reader Redirection
  | 0, _ => failure
  | fuel + 1, descriptor => do
    let (taken, usual, direction) : Nat × Nat × Direction ← match ← ahead with
      | '<' :: '<' :: '-' :: _ => pure (3, 0, .here)
      | '<' :: '<' :: _ => pure (2, 0, .here)
      | '<' :: '&' :: _ => pure (2, 0, .copyInput)
      | '<' :: '>' :: _ => pure (2, 0, .input)
      | '<' :: _ => pure (1, 0, .input)
      | '>' :: '>' :: _ => pure (2, 1, .append)
      | '>' :: '&' :: _ => pure (2, 1, .copyOutput)
      | '>' :: '|' :: _ => pure (2, 1, .overwrite)
      | '>' :: _ => pure (1, 1, .output)
      | _ => failure
    skip taken
    skipBlanks
    let descriptor := descriptor.getD usual
    if direction = .here then
      let (word, isQuoted, rest) := closingWord (← ahead)
      if word.isEmpty && !isQuoted then failure
      set rest
      let body ← takeLines word (taken = 3)
      if isQuoted then return .mk descriptor .here [.text body true]
      else
        let (target, _) ← ((readParts fuel .lines false).run body : Option _)
        return .mk descriptor .here target
    else
      let target ← readWord fuel
      return .mk descriptor direction target

/-- Reads the redirections that lie ahead. -/
def readRedirections : Nat → Reader (List Redirection)
  | 0 => failure
  | fuel + 1 => do
    skipBlanks
    let digits := (← ahead).takeWhile Char.isDigit
    match (← ahead).drop digits.length with
    | '<' :: _ | '>' :: _ =>
      skip digits.length
      let first ← readRedirection fuel (String.ofList digits).toNat?
      let more ← readRedirections fuel
      return first :: more
    | _ => return []

/-- Reads a simple command. -/
def readSimple : Nat → Bool → Reader (List (Octets × Word) × List Word × List Redirection)
  | 0, _ => failure
  | fuel + 1, hasWords => do
    let redirections ← readRedirections fuel
    skipBlanks
    match ← ahead with
    | [] => return ([], [], redirections)
    | c :: _ =>
      if endsWord c then return ([], [], redirections)
      else
        let name := (← ahead).takeWhile Octets.inName
        match (← ahead).drop name.length, !hasWords && Octets.isName name with
        | '=' :: rest, true =>
          set rest
          let value ← readParts fuel .value true
          let (assignments, words, more) ← readSimple fuel false
          return ((name, value) :: assignments, words, redirections ++ more)
        | _, _ =>
          let word ← readWord fuel
          let (assignments, words, more) ← readSimple fuel true
          return (assignments, word :: words, redirections ++ more)

/-- Reads a command that is no pipeline. -/
def readCommand : Nat → Reader Command
  | 0 => failure
  | fuel + 1 => do
    skipBlanks
    let compound (body : Reader Command) : Reader Command := do
      let command ← body
      match ← readRedirections fuel with
      | [] => return command
      | redirections => return .redirected command redirections
    match ← ahead with
    | '(' :: rest =>
      set rest
      compound do
        let body ← readList fuel
        skipLines
        expect ')'
        return .subshell body
    | _ =>
      match ← reservedAhead with
      | some "\x7b" =>
        skip 1
        compound do
          let body ← readList fuel
          expectWord "\x7d"
          return body
      | some "if" =>
        skip 2
        compound (readBranch fuel)
      | some "while" =>
        skip 5
        compound (readCycle fuel false)
      | some "until" =>
        skip 5
        compound (readCycle fuel true)
      | some "for" =>
        skip 3
        compound (readEach fuel)
      | some "case" =>
        skip 4
        compound (readSelect fuel)
      | some "in" | none =>
        let name := (← ahead).takeWhile Octets.inName
        match dropBlanks ((← ahead).drop name.length), Octets.isName name with
        | '(' :: rest, true =>
          match dropBlanks rest with
          | ')' :: rest =>
            set rest
            skipLines
            let body ← readCommand fuel
            return .define name body
          | _ => failure
        | _, _ =>
          let (assignments, words, redirections) ← readSimple fuel false
          if assignments.isEmpty && words.isEmpty && redirections.isEmpty then failure
          return .simple assignments words redirections
      | some _ => failure

/-- Reads a conditional command after its first word. -/
def readBranch : Nat → Reader Command
  | 0 => failure
  | fuel + 1 => do
    let condition ← readList fuel
    expectWord "then"
    let body ← readList fuel
    skipLines
    match ← reservedAhead with
    | some "elif" =>
      skip 4
      let otherwise ← readBranch fuel
      return .branch condition body otherwise
    | some "else" =>
      skip 4
      let otherwise ← readList fuel
      expectWord "fi"
      return .branch condition body otherwise
    | some "fi" =>
      skip 2
      return .branch condition body .nothing
    | _ => failure

/-- Reads a body between its two words. -/
def readBody : Nat → Reader Command
  | 0 => failure
  | fuel + 1 => do
    expectWord "do"
    let body ← readList fuel
    expectWord "done"
    return body

/-- Reads a repetition after its first word. -/
def readCycle : Nat → Bool → Reader Command
  | 0, _ => failure
  | fuel + 1, untilSuccess => do
    let condition ← readList fuel
    let body ← readBody fuel
    return .cycle untilSuccess condition body

/-- Reads the words up to the end of a line. -/
def readWords : Nat → Reader (List Word)
  | 0 => failure
  | fuel + 1 => do
    skipBlanks
    match ← ahead with
    | [] => return []
    | c :: _ =>
      if endsWord c then return []
      else
        let word ← readWord fuel
        let more ← readWords fuel
        return word :: more

/-- Reads a repetition over words after its first word. -/
def readEach : Nat → Reader Command
  | 0 => failure
  | fuel + 1 => do
    skipBlanks
    let name ← readName
    skipLines
    let words ←
      if (← reservedAhead) = some "in" then do
        skip 2
        let words ← readWords fuel
        pure (some words)
      else pure none
    skipBlanks
    if (← ahead).head? = some ';' then skip 1
    let body ← readBody fuel
    return .each name words body

/-- Reads the patterns of an arm, which bars divide. -/
def readPatterns : Nat → Reader (List Word)
  | 0 => failure
  | fuel + 1 => do
    skipBlanks
    let word ← readWord fuel
    skipBlanks
    match ← ahead with
    | '|' :: rest =>
      set rest
      let more ← readPatterns fuel
      return word :: more
    | ')' :: rest =>
      set rest
      return [word]
    | _ => failure

/-- Reads the arms of a selection. -/
def readArms : Nat → Reader (List (List Word × Command))
  | 0 => failure
  | fuel + 1 => do
    skipLines
    if (← reservedAhead) = some "esac" then
      skip 4
      return []
    else
      if (← ahead).head? = some '(' then skip 1
      let patterns ← readPatterns fuel
      let body ← readList fuel
      skipLines
      match ← ahead with
      | ';' :: ';' :: rest =>
        set rest
        let more ← readArms fuel
        return (patterns, body) :: more
      | _ =>
        expectWord "esac"
        return [(patterns, body)]

/-- Reads a selection after its first word. -/
def readSelect : Nat → Reader Command
  | 0 => failure
  | fuel + 1 => do
    skipBlanks
    let word ← readWord fuel
    expectWord "in"
    let arms ← readArms fuel
    return .select word arms

/-- Reads the commands of a pipeline. -/
def readStages : Nat → Reader (List Command)
  | 0 => failure
  | fuel + 1 => do
    let first ← readCommand fuel
    skipBlanks
    match ← ahead with
    | '|' :: '|' :: _ => return [first]
    | '|' :: rest =>
      set rest
      skipLines
      let more ← readStages fuel
      return first :: more
    | _ => return [first]

/-- Reads a pipeline. -/
def readPipeline : Nat → Reader Command
  | 0 => failure
  | fuel + 1 => do
    skipBlanks
    if (← reservedAhead) = some "!" then
      skip 1
      let command ← readPipeline fuel
      return .negation command
    else
      match ← readStages fuel with
      | [command] => return command
      | stages => return .pipeline stages

/-- Extends a command by the pipelines that run on its success or failure. -/
def readChain : Nat → Command → Reader Command
  | 0, _ => failure
  | fuel + 1, first => do
    skipBlanks
    match ← ahead with
    | '&' :: '&' :: rest =>
      set rest
      skipLines
      let second ← readPipeline fuel
      readChain fuel (.both first second)
    | '|' :: '|' :: rest =>
      set rest
      skipLines
      let second ← readPipeline fuel
      readChain fuel (.either first second)
    | _ => return first

/-- Reads the commands of a list, up to the end of what encloses it. -/
def readCommands : Nat → Reader (List Command)
  | 0 => failure
  | fuel + 1 => do
    skipLines
    if ← atEnd then return []
    else
      let first ← readPipeline fuel
      let command ← readChain fuel first
      skipBlanks
      match ← ahead with
      | ';' :: ';' :: _ => return [command]
      | ';' :: rest | '\n' :: rest =>
        set rest
        let more ← readCommands fuel
        return command :: more
      | '&' :: rest =>
        set rest
        let more ← readCommands fuel
        return .background command :: more
      | _ => return [command]

/-- Reads a list of commands. -/
def readList : Nat → Reader Command
  | 0 => failure
  | fuel + 1 => do
    let commands ← readCommands fuel
    return .sequence commands

end

/-- Reads the commands of one line and what follows it. -/
def readLine : Nat → Reader (List Command)
  | 0 => failure
  | fuel + 1 => do
    let first ← readPipeline fuel
    let command ← readChain fuel first
    skipBlanks
    let more (command : Command) : Reader (List Command) := do
      skipBlanks
      match ← ahead with
      | [] | '\n' :: _ => return [command]
      | _ => return command :: (← readLine fuel)
    match ← ahead with
    | [] | '\n' :: _ => return [command]
    | ';' :: rest =>
      set rest
      more command
    | '&' :: rest =>
      set rest
      more (.background command)
    | _ => failure

/-- Whether a script has nothing more to run. -/
def isSpent (script : Octets) : Bool := (dropLines (script.length + 1) script).isEmpty

/-- Reads the next line of a script that has commands, which may take several lines to write. -/
def nextLine (script : Octets) : Option (Command × Octets) := do
  let (commands, rest) ← (do skipLines; readLine (8 * script.length + 64) : Reader _).run script
  return (.sequence commands, rest)

end InputScript.Shell.Grammar
