import InputScript.Shell.Process

/-!
# Built-in commands

The commands a shell carries out itself because they change it or look into it, as far as they do not
run other commands.
-/

namespace InputScript.Shell.Builtin

/-- The exit status that an argument spells. -/
def statusOf (arg : Octets) : Eval Nat :=
  match (String.ofList arg).toNat? with
  | some n => pure (n % 256)
  | none => Eval.abort ("Illegal number: " ++ String.ofList arg)

/-- The number of levels that an argument spells; without one it is one. -/
def levelsOf : List Octets → Eval Nat
  | [] => pure 1
  | arg :: _ =>
    match (String.ofList arg).toNat? with
    | some (n + 1) => pure (n + 1)
    | _ => Eval.abort ("Illegal number: " ++ String.ofList arg)

/-- Ends repetitions as a stop says, as many as the arguments ask for and at most those under way;
outside of all it does nothing. -/
def stopRounds (stop : Nat → Stop) (args : List Octets) : Eval Nat := do
  let levels ← levelsOf args
  match min levels (← get).rounds with
  | 0 => return 0
  | levels => throw (stop levels)

/-- Signals by name. -/
def signals : List (String × Nat) :=
  [("EXIT", 0), ("HUP", 1), ("INT", 2), ("QUIT", 3), ("ILL", 4), ("TRAP", 5), ("ABRT", 6), ("BUS", 7),
   ("FPE", 8), ("KILL", 9), ("USR1", 10), ("SEGV", 11), ("USR2", 12), ("PIPE", 13), ("ALRM", 14),
   ("TERM", 15), ("CHLD", 17), ("CONT", 18), ("STOP", 19), ("TSTP", 20), ("TTIN", 21), ("TTOU", 22),
   ("URG", 23), ("XCPU", 24), ("XFSZ", 25), ("VTALRM", 26), ("PROF", 27), ("WINCH", 28), ("IO", 29),
   ("PWR", 30), ("SYS", 31)]

/-- The signals that leave a process as it is. -/
def isHarmless (signal : Nat) : Bool := [0, 17, 18, 23, 28].contains signal

/-- The signal that a word names, by number or by name. -/
def signal? (word : Octets) : Option Nat :=
  match (String.ofList word).toNat? with
  | some n => some n
  | none =>
    let upper := word.map Char.toUpper
    let name := if "SIG".toList.isPrefixOf upper then upper.drop 3 else upper
    signals.lookup (String.ofList name)

/-- The name of a signal; those for free use are counted from the two ends of their range. -/
def signalName (signal : Nat) : Octets :=
  match signals.find? (·.2 == signal) with
  | some (name, _) => name.toList
  | none =>
    String.toList <|
      if signal = 34 then "RTMIN"
      else if signal = 64 then "RTMAX"
      else if 34 < signal && signal < 50 then "RTMIN+" ++ Text.decimal (signal - 34)
      else if 49 < signal && signal < 64 then "RTMAX-" ++ Text.decimal (64 - signal)
      else Text.decimal signal

/-- Sends a signal to processes. Only the shell itself is there to be reached; what it has to run on the
signal is run later. -/
def send (args : List Octets) : Eval Nat := do
  let (signal, targets) : Option Nat × List Octets :=
    match args with
    | ['-', 's'] :: name :: rest => (signal? name, rest)
    | ['-', 'n'] :: name :: rest => (signal? name, rest)
    | ['-', '-'] :: rest => (some 15, rest)
    | ('-' :: name) :: rest => (signal? name, if rest.head? = some ['-', '-'] then rest.drop 1 else rest)
    | _ => (some 15, args)
  match signal with
  | none => Eval.abort "kill: invalid signal"
  | some signal =>
    let own := (Text.decimal processNumber).toList
    if targets.contains own then
      let p ← get
      match p.traps.lookup signal with
      | some _ =>
        set { p with pending := p.pending ++ [signal] }
        return 0
      | none => if isHarmless signal then return 0 else throw (.killed signal)
    else
      Eval.complain "kill: No such process"
      return 1

/-- Sends a signal, or tells the name of one or of all. -/
def kill : List Octets → Eval Nat
  | [['-', 'l']] => do
    modify (·.write 1 (Tool.unlines (['0'] :: (List.range' 1 64).map signalName)))
    return 0
  | [['-', 'l'], word] => do
    match (String.ofList word).toNat? with
    | some n =>
      modify (·.write 1 (signalName (if 128 < n then n - 128 else n) ++ ['\n']))
      return 0
    | none => Eval.abort ("Illegal number: " ++ String.ofList word)
  | [] => do
    Eval.complain "kill: usage"
    return 2
  | args => send args

def cd (args : List Octets) : Eval Nat := do
  let p ← get
  let target := match args with
    | [] => (p.bindings.lookup "HOME".toList).getD ['.']
    | target :: _ => target
  match p.files.resolve target with
  | .ok names =>
    match p.files.root.get names with
    | .ok (.directory _) =>
      set { p with files := { p.files with working := names } }
      return 0
    | _ =>
      Eval.complain ("cd: can't cd to " ++ String.ofList target)
      return 2
  | .error _ =>
    Eval.complain ("cd: can't cd to " ++ String.ofList target)
    return 2

/-- Divides an assignment given as a word. -/
def assignment (word : Octets) : Octets × Option Octets :=
  let name := word.takeWhile (· != '=')
  match word.drop name.length with
  | _ :: value => (name, some value)
  | [] => (name, none)

/-- A text in quotes, as a shell reads it. -/
def quoted (text : Octets) : Octets :=
  '\'' :: text.flatMap (fun c => if c == '\'' then "'\"'\"'".toList else [c]) ++ ['\'']

/-- Lines that declare variables again. -/
def declarations (opening : String) (names : List Octets) (p : Process) : Octets :=
  let names := (names.eraseDups).mergeSort Octets.le
  Tool.unlines (names.map fun name =>
    opening.toList ++ name ++ (match p.bindings.lookup name with
      | some value => '=' :: quoted value
      | none => []))

/-- Sets variables given as words and does something to each, before or after it is set. -/
def declare (before after : Octets → Eval Unit) (args : List Octets) : Eval Nat := do
  for arg in args do
    let (name, value) := assignment arg
    if !Octets.isName name then Eval.abort (String.ofList name ++ ": bad variable name")
    before name
    match value with
    | some value => Eval.assign name value
    | none => pure ()
    after name
  return 0

/-- Declares variables, or lists those declared before; `-p` asks for the list. -/
def declareOrList (opening : String) (declared : Process → List Octets) (after : Octets → Eval Unit)
    (args : List Octets) : Eval Nat := do
  match args with
  | [] | [['-', 'p']] =>
    modify fun p => p.write 1 (declarations opening (declared p) p)
    return 0
  | ('-' :: option) :: rest =>
    if option = ['p'] || option = ['-'] then declare (fun _ => pure ()) after rest
    else Eval.abort ("Illegal option -" ++ String.ofList option)
  | _ => declare (fun _ => pure ()) after args

def exportNames (args : List Octets) : Eval Nat :=
  declareOrList "export " (·.exported)
    (fun name => modify fun p => { p with exported := name :: p.exported }) args

def fixNames (args : List Octets) : Eval Nat :=
  declareOrList "readonly " (·.fixed)
    (fun name => modify fun p => { p with fixed := name :: p.fixed }) args

/-- Makes variables the function's own. A dash stands for the options. -/
def makeLocal (args : List Octets) : Eval Nat := do
  if (← get).locals.isNone then Eval.abort "not in a function"
  let save (name : Octets) (value : Process → Option Octets) : Eval Unit := modify fun p =>
    { p with locals := p.locals.map fun saved =>
        if saved.any (·.1 == name) then saved else (name, value p) :: saved }
  if args.contains ['-'] then save ['-'] fun p => some p.options
  declare (fun name => save name (·.bindings.lookup name)) (fun _ => pure ()) (args.filter (· != ['-']))

/-- The variables as they were before a function made some its own. -/
def leaveFunction (p : Process) : Process :=
  (p.locals.getD []).foldl (fun p (name, value) =>
    match name, value with
    | ['-'], options => { p with options := options.getD [] }
    | _, some value => p.assign name value
    | _, none => { p with bindings := p.bindings.filter (·.1 != name) }) p

def unset (args : List Octets) : Eval Nat := do
  let functionsOnly := args.head? = some ['-', 'f']
  for arg in args.filter (·.head? != some '-') do
    if functionsOnly then modify fun p => { p with functions := p.functions.filter (·.1 != arg) }
    else
      if !Octets.isName arg then Eval.abort (String.ofList arg ++ ": bad variable name")
      if (← get).fixed.contains arg then Eval.abort (String.ofList arg ++ ": is read only")
      modify fun p => { p with
        bindings := p.bindings.filter (·.1 != arg)
        exported := p.exported.filter (· != arg) }
  return 0

/-- Sets what to run on signals, or lists it. -/
def trap (args : List Octets) : Eval Nat := do
  let args := if args.head? = some ['-', '-'] then args.drop 1 else args
  let clear (signal : Nat) : Eval Unit :=
    modify fun p => { p with traps := p.traps.filter (·.1 != signal) }
  let onSignals (words : List Octets) (act : Nat → Eval Unit) : Eval Nat := do
    for word in words do
      match signal? word with
      | some signal => act signal
      | none =>
        Eval.complain ("trap: " ++ String.ofList word ++ ": bad trap")
        return 1
    return 0
  match args with
  | [] =>
    let p ← get
    let lines := (p.traps.mergeSort fun a b => a.1 ≤ b.1).map fun (signal, action) =>
      "trap -- ".toList ++ quoted action ++ ' ' :: signalName signal
    set (p.write 1 (Tool.unlines lines))
    return 0
  | [word] => onSignals [word] clear
  | ['-'] :: words => onSignals words clear
  | action :: words =>
    onSignals words fun signal =>
      modify fun p => { p with traps := (signal, action) :: p.traps.filter (·.1 != signal) }

def shift (args : List Octets) : Eval Nat := do
  let n ← match args with
    | [] => pure 1
    | arg :: _ => statusOf arg
  let p ← get
  if p.parameters.length < n then Eval.abort "shift: can't shift that many"
  set { p with parameters := p.parameters.drop n }
  return 0

/-- The options that have names. -/
def optionNames : List (String × Char) :=
  [("errexit", 'e'), ("noglob", 'f'), ("ignoreeof", 'I'), ("interactive", 'i'), ("monitor", 'm'),
   ("noexec", 'n'), ("stdin", 's'), ("xtrace", 'x'), ("verbose", 'v'), ("vi", 'V'), ("emacs", 'E'),
   ("noclobber", 'C'), ("allexport", 'a'), ("notify", 'b'), ("nounset", 'u')]

/-- Switches options on or off. -/
def switch (isOn : Bool) (letters : List Char) : Eval Unit := do
  for letter in letters do
    if !optionLetters.contains letter then Eval.abort ("Illegal option -" ++ letter.toString)
    modify fun p =>
      let others := p.options.filter (· != letter)
      { p with options := if isOn then letter :: others else others }

/-- Switches an option by its name. -/
def switchNamed (isOn : Bool) (name : Octets) : Eval Unit :=
  match optionNames.lookup (String.ofList name) with
  | some letter => switch isOn [letter]
  | none => Eval.abort ("Illegal option -o " ++ String.ofList name)

/-- Sets options and the positional parameters. -/
def setParameters (args : List Octets) : Eval Nat := do
  match args with
  | [] => return 0
  | ['-', '-'] :: rest =>
    modify ({ · with parameters := rest })
    return 0
  | ['-'] :: rest =>
    switch false ['x', 'v']
    if !rest.isEmpty then modify ({ · with parameters := rest })
    return 0
  | [['-', 'o']] | [['+', 'o']] => return 0
  | ['-', 'o'] :: name :: rest =>
    switchNamed true name
    setParameters rest
  | ['+', 'o'] :: name :: rest =>
    switchNamed false name
    setParameters rest
  | ('-' :: letters) :: rest =>
    switch true letters
    setParameters rest
  | ('+' :: letters) :: rest =>
    switch false letters
    setParameters rest
  | _ =>
    modify ({ · with parameters := args })
    return 0

/-- Sets options and the positional parameters; without arguments it lists the variables. -/
def setOrList (args : List Octets) : Eval Nat := do
  if args.isEmpty then modify fun p => p.write 1 (declarations "" (p.bindings.map (·.1)) p)
  setParameters args

/-- The words of a line for variables, the last one taking what is left. Of a single word left, the
separator after it is dropped. -/
def wordsFor (separators : Octets) : List Octets → List Glyph → List (Octets × Octets)
  | [], _ => []
  | name :: more, line =>
    let divides (g : Glyph) : Bool := !g.quoted && separators.contains g.char
    let blank (g : Glyph) : Bool := divides g && usualSeparators.contains g.char
    let line := line.dropWhile blank
    let word := line.takeWhile fun g => !divides g
    let rest := (line.drop word.length).dropWhile blank
    let rest := match rest with
      | g :: tail => if divides g then tail.dropWhile blank else rest
      | [] => []
    if more.isEmpty && !rest.isEmpty then [(name, plain (line.reverse.dropWhile blank).reverse)]
    else (name, plain word) :: wordsFor separators more rest

/-- A line of input and what follows it. A backslash quotes the next octet, unless lines are taken as
they are; the second argument says that the octet is quoted. -/
def inputLine (isRaw : Bool) : Bool → Octets → List Glyph × Option Octets
  | _, [] => ([], none)
  | isQuoted, c :: rest =>
    if isQuoted then
      let (line, tail) := inputLine isRaw false rest
      (if c == '\n' then line else ⟨c, true⟩ :: line, tail)
    else if c == '\n' then ([], some rest)
    else if c == '\\' && !isRaw then inputLine isRaw true rest
    else
      let (line, tail) := inputLine isRaw false rest
      (⟨c, false⟩ :: line, tail)

/-- Reads a line of input into variables. -/
def read (args : List Octets) : Eval Nat := do
  let isRaw := args.head? = some ['-', 'r']
  let names := args.filter (·.head? != some '-')
  if names.isEmpty then
    Eval.complain "read: arg count"
    return 2
  let p ← get
  let (line, rest) := inputLine isRaw false p.input
  set { p with input := rest.getD [] }
  for (name, value) in wordsFor p.separators names line do
    if p.fixed.contains name then
      Eval.complain (String.ofList name ++ ": is read only")
      return 2
    Eval.assign name value
  return if rest.isNone then 1 else 0

/-- Runs a tool inside the shell. -/
def tool (run : Job → Done) (args : List Octets) : Eval Nat := do
  let p ← get
  let done := run { args, environment := p.environment, input := p.input, files := p.files }
  set (({ p with files := done.files, input := done.input }.write 1 done.output).write 2 done.complaint)
  return done.status

/-- Prints with escapes replaced. -/
def echo (args : List Octets) : Eval Nat := do
  modify (·.write 1 (Printing.echo args))
  return 0

def succeed (_ : List Octets) : Eval Nat := pure 0

/-- The built-in commands whose failure ends the shell and whose assignments stay. -/
def special : List (String × (List Octets → Eval Nat)) :=
  [(":", succeed),
   ("exit", fun args => do
      let status ← match args with
        | [] => pure (← get).status
        | arg :: _ => statusOf arg
      throw (.exit status)),
   ("return", fun args => do
      let status ← match args with
        | [] => pure (← get).status
        | arg :: _ => statusOf arg
      throw (.back status)),
   ("break", stopRounds .leave), ("continue", stopRounds .again),
   ("export", exportNames), ("readonly", fixNames), ("set", setOrList), ("shift", shift),
   ("times", succeed), ("trap", trap), ("unset", unset)]

/-- The other built-in commands. -/
def regular : List (String × (List Octets → Eval Nat)) :=
  [("true", succeed), ("false", fun _ => pure 1), ("echo", echo), ("printf", tool Tool.printf),
   ("test", tool (Tool.test false)), ("[", tool (Tool.test true)), ("kill", kill), ("cd", cd),
   ("chdir", cd), ("local", makeLocal), ("read", read),
   ("pwd", fun _ => do
      let p ← get
      set (p.write 1 (Tool.workingPath p.files ++ ['\n']))
      return 0),
   ("alias", succeed), ("bg", succeed), ("fg", succeed), ("hash", succeed), ("jobs", succeed),
   ("ulimit", succeed), ("umask", succeed), ("unalias", succeed), ("wait", succeed)]

/-- The special built-in commands that run others. -/
def runningSpecial : List String := ["eval", ".", "exec"]

/-- The other built-in commands that run others or look them up. -/
def running : List String := ["command", "type"]

end InputScript.Shell.Builtin
