import InputScript.Shell.Builtin
import InputScript.Shell.Grammar
import InputScript.Shell.Image

/-!
# Running shell scripts

Expansion and execution depend on each other: a word may hold a command whose output it takes, and a
command is made of words. All the functions here take a bound on the depth of their calls, which also
bounds the rounds of a repetition; reaching it ends the script.
-/

namespace InputScript.Shell

/-- How a program ended. -/
inductive Ended
  | exited (status : Nat)
  | killed (signal : Nat)
deriving DecidableEq, Repr

/-- The status of an ended program as a shell sees it. -/
def Ended.status : Ended → Nat
  | .exited status => status
  | .killed signal => 128 + signal

/-- The home directories of users. -/
def userHomes : List (String × String) :=
  [("root", "/root"), ("daemon", "/usr/sbin"), ("bin", "/bin"), ("sys", "/dev"), ("nobody", "/nonexistent")]

/-- The home directory that a tilde stands for. -/
def Process.home? (p : Process) (user : Octets) : Option Octets :=
  if user.isEmpty then p.bindings.lookup "HOME".toList
  else (userHomes.lookup (String.ofList user)).map String.toList

/-- What a shell is asked to run: a script with its name and parameters, under options. -/
structure Errand where
  script : Octets
  name : Octets
  parameters : List Octets
  options : List Char := []

/-- Why a shell cannot start. -/
inductive ErrandFault
  | badOption
  | noScript
  /-- A file that cannot be read. -/
  | unreadable (file : Octets)

/-- Why a shell cannot start, in words. -/
def ErrandFault.text : ErrandFault → String
  | .badOption => "Illegal option"
  | .noScript => "-c requires an argument"
  | .unreadable file => "cannot open " ++ String.ofList file

/-- What the arguments after the options of a shell ask for. -/
def errandOf (p : Process) (called : Octets) (options : List Char) :
    List Octets → Except ErrandFault Errand
  | args =>
    let shown := options.filter (· != 'c')
    if options.contains 'c' then
      match args with
      | [] => .error .noScript
      | script :: rest => .ok ⟨script, rest.headD called, rest.drop 1, shown⟩
    else if options.contains 's' then .ok ⟨p.input, called, args, shown⟩
    else
      match args with
      | [] => .ok ⟨p.input, called, [], 's' :: shown⟩
      | file :: rest =>
        match p.files.read file with
        | .ok script => .ok ⟨script, file, rest, shown⟩
        | .error _ => .error (.unreadable file)

/-- Reads the arguments of a shell. -/
def errand (p : Process) (called : Octets) :
    List Char → List Octets → Except ErrandFault Errand
  | options, [] => errandOf p called options []
  | options, ['-'] :: rest | options, ['-', '-'] :: rest => errandOf p called options rest
  | options, ('-' :: letters) :: rest =>
    if letters.all fun c => c = 'c' || optionLetters.contains c then
      errand p called (letters ++ options) rest
    else .error .badOption
  | options, args => errandOf p called options args

/-- The variables of a new shell. -/
def initialVariables (environment : Bindings) : Bindings :=
  let imported := environment.filter fun (name, _) => Octets.isName name && name != "IFS".toList
  let usual : Bindings :=
    [("IFS".toList, usualSeparators), ("PATH".toList, usualPath), ("OPTIND".toList, ['1']),
     ("PS1".toList, "$ ".toList), ("PS2".toList, "> ".toList), ("PS4".toList, "+ ".toList)]
  imported ++ usual.filter fun (name, _) => !imported.any (·.1 == name)

/-- The parameters of a shell as fields: one item list for each. -/
def parameterItems (quoted : Bool) (parameters : List Octets) : List Item :=
  List.intercalate [.boundary] (parameters.map (Item.ofValue quoted))

/-- The output of a command as a word takes it: without zeros and without line ends at the end. -/
def trimOutput (text : Octets) : Octets :=
  ((text.filter (· != '\x00')).reverse.dropWhile (· == '\n')).reverse

/-- What a name means where a command may start. -/
inductive Kind
  | keyword
  | function
  | special
  | builtin
  | program (path : Octets)
deriving DecidableEq, Repr

/-- How a name is shown that has a meaning: a program by its path. -/
def Kind.shown (name : Octets) : Kind → Octets
  | .program path => path
  | _ => name

/-- The meaning of a name in words. -/
def Kind.description : Kind → String
  | .keyword => "a shell keyword"
  | .function => "a shell function"
  | .special => "a special shell builtin"
  | .builtin => "a shell builtin"
  | .program path => String.ofList path

/-- The meaning of a name. -/
def Process.kind? (p : Process) (name : Octets) : Option Kind :=
  let word := String.ofList name
  if Grammar.reserved.contains word then some .keyword
  else if p.functions.any (·.1 == name) then some .function
  else if (Builtin.special.lookup word).isSome || Builtin.runningSpecial.contains word then some .special
  else if (Builtin.regular.lookup word).isSome || Builtin.running.contains word then some .builtin
  else
    let path := (p.bindings.lookup "PATH".toList).getD usualPath
    ((Image.candidates path name).find? fun c => (Image.load p.files 5 c [c]).isOk).map .program

/-- Says what names mean. -/
def describe (names : List Octets) : Eval Unit := do
  let p ← get
  let kinds := names.map fun n => (n, p.kind? n)
  let lines := kinds.map fun (n, kind) =>
    match kind with
    | some kind => n ++ (" is " ++ kind.description).toList
    | none => n ++ ": not found".toList
  set (p.write 1 (Tool.unlines lines))
  Eval.setStatus (if kinds.all (·.2.isSome) then 0 else 127)

mutual

/-- Expands a part of a word. With `separates` its unquoted text may be split. -/
def expandPart : Nat → Bool → Part → Eval (List Item)
  | 0, _, _ => throw .exhausted
  | fuel + 1, separates, part => do
    match part with
    | .text octets true =>
      return .presence :: octets.map fun c => .glyph ⟨c, true⟩ false
    | .text octets false => return octets.map fun c => .glyph ⟨c, false⟩ separates
    | .home user =>
      match (← get).home? user with
      | some home => return Item.ofValue true home
      | none => return ('~' :: user).map fun c => .glyph ⟨c, false⟩ separates
    | .parameter name form quoted => expandParameter fuel name form quoted
    | .output body quoted =>
      let status := (← get).status
      let text ← Eval.piped (Eval.isolated (Eval.withTested false (finish fuel (runCommand fuel body))))
      modify fun p => { p with status, substituted := some p.status }
      return Item.ofValue quoted (trimOutput text)
    | .arithmetic expression quoted =>
      let items ← expandWord fuel false expression
      let p ← get
      match Arithmetic.evaluate p.bindings (Item.octets items) with
      | .ok (n, bindings) =>
        for (name, value) in bindings do
          if p.bindings.lookup name != some value then Eval.assign name value
        return Item.ofValue quoted (Text.decimalInt n).toList
      | .error _ => Eval.abort "arithmetic expression"

/-- Expands the parts of a word. -/
def expandWord : Nat → Bool → Word → Eval (List Item)
  | 0, _, _ => throw .exhausted
  | fuel + 1, separates, parts => do
    let items ← parts.mapM (expandPart fuel separates)
    return items.flatten

/-- Expands a parameter. -/
def expandParameter : Nat → Octets → Form → Bool → Eval (List Item)
  | 0, _, _, _ => throw .exhausted
  | fuel + 1, name, form, quoted => do
    let p ← get
    let value := p.parameter? name
    let whole : List Item :=
      match name, quoted with
      | ['@'], _ => parameterItems quoted p.parameters
      | ['*'], false => parameterItems false p.parameters
      | ['*'], true =>
        Item.ofValue true (List.intercalate (p.separators.take 1) p.parameters)
      | _, _ => Item.ofValue quoted (value.getD [])
    let isMissing (orEmpty : Bool) : Bool :=
      match value with
      | none => true
      | some text => orEmpty && text.isEmpty
    let inner (word : Word) : Eval (List Item) := do
      let items ← expandWord fuel (!quoted) word
      return if quoted then .presence :: items else items
    let pattern (word : Word) : Eval (List Pattern.Atom) := do
      let items ← expandWord fuel false word
      return Pattern.compile (Item.glyphs items)
    let isLoose := match form with
      | .value | .length | .trimStart _ _ | .trimEnd _ _ => true
      | _ => false
    if isLoose && value.isNone && p.has 'u' then
      Eval.abort (String.ofList name ++ ": parameter not set")
    match form with
    | .malformed => Eval.abort "Bad substitution"
    | .value => return whole
    | .length =>
      let n := if name = ['@'] || name = ['*'] then p.parameters.length else (value.getD []).length
      return Item.ofValue quoted (Text.decimal n).toList
    | .fallback orEmpty word => if isMissing orEmpty then inner word else return whole
    | .alternative orEmpty word => if isMissing orEmpty then return Item.ofValue quoted [] else inner word
    | .assign orEmpty word =>
      if isMissing orEmpty then
        if !Octets.isName name then Eval.abort (String.ofList name ++ ": bad variable name")
        let items ← expandWord fuel false word
        let text := Item.octets items
        Eval.assign name text
        return Item.ofValue quoted text
      else return whole
    | .require orEmpty word =>
      if isMissing orEmpty then
        let items ← expandWord fuel false word
        let message := Item.octets items
        Eval.abort (String.ofList name ++ ": "
          ++ (if message.isEmpty then "parameter not set" else String.ofList message))
      else return whole
    | .trimStart longest word =>
      let atoms ← pattern word
      return Item.ofValue quoted (Pattern.trimStart atoms longest (value.getD []))
    | .trimEnd longest word =>
      let atoms ← pattern word
      return Item.ofValue quoted (Pattern.trimEnd atoms longest (value.getD []))

/-- Expands words to fields. -/
def expandFields : Nat → List Word → Eval (List Octets)
  | 0, _ => throw .exhausted
  | fuel + 1, words => do
    let fields ← words.mapM fun word => do
      let items ← expandWord fuel false word
      return Item.fields (← get) items
    return fields.flatten

/-- Carries out a redirection and tells whether that was possible. -/
def redirect : Nat → Redirection → Eval Bool
  | 0, _ => throw .exhausted
  | fuel + 1, .mk descriptor direction target => do
    let items ← expandWord fuel false target
    let path := Item.octets items
    let p ← get
    let refuse (verb : String) (e : Errno) : Eval Bool := do
      Eval.complain ("cannot " ++ verb ++ " " ++ String.ofList path ++ ": " ++ e.text)
      return false
    let openAt (truncates isGuarded : Bool) : Eval Bool := do
      match p.files.place path with
      | .error e => refuse "create" e
      | .ok names =>
        match p.files.root.get names with
        | .ok (.directory _) => refuse "create" .isDirectory
        | .ok .void =>
          set (p.direct descriptor (some .void))
          return true
        | .ok (.program _) => refuse "create" .textBusy
        | found =>
          if isGuarded && found.isOk then
            Eval.complain ("cannot create " ++ String.ofList path ++ ": File exists")
            return false
          let files := if truncates || !found.isOk then p.files.write names [] else p.files
          set ({ p with files }.direct descriptor (some (.file names)))
          return true
    match direction with
    | .input =>
      match p.files.get path with
      | .error e => refuse "open" e
      | .ok _ =>
        if descriptor = 0 then
          match p.files.read path with
          | .ok content => set { p with input := content }
          | .error _ => set { p with input := [] }
        return true
    | .output => openAt true (p.has 'C')
    | .overwrite => openAt true false
    | .append => openAt false false
    | .here =>
      if descriptor = 0 then set { p with input := path }
      return true
    | .copyInput =>
      if path = ['-'] && descriptor = 0 then set { p with input := [] }
      return true
    | .copyOutput =>
      match path, (String.ofList path).toNat? with
      | ['-'], _ =>
        set (p.direct descriptor none)
        return true
      | _, some source =>
        match p.targets.lookup source with
        | some target =>
          set (p.direct descriptor (some target))
          return true
        | none =>
          Eval.complain (String.ofList path ++ ": Bad file descriptor")
          return false
      | _, none => Eval.abort "Syntax error: Bad fd number"

/-- Carries out redirections in turn until one fails. -/
def redirectAll : Nat → List Redirection → Eval Bool
  | 0, _ => throw .exhausted
  | _ + 1, [] => return true
  | fuel + 1, first :: rest => do
    if ← redirect fuel first then redirectAll fuel rest else return false

/-- Does something under redirections, which are taken back afterwards. -/
def underRedirections : Nat → List Redirection → Eval Unit → Eval Unit → Eval Unit
  | 0, _, _, _ => throw .exhausted
  | fuel + 1, redirections, onFailure, body => do
    let before ← get
    let readsElsewhere := redirections.any fun
      | .mk 0 _ _ => true
      | _ => false
    let restore : Eval Unit := modify fun p =>
      { p with targets := before.targets, input := if readsElsewhere then before.input else p.input }
    let isOpen ← redirectAll fuel redirections
    if isOpen then
      let ended ← tryCatch (do body; pure none) fun stop => pure (some stop)
      restore
      match ended with
      | some stop => throw stop
      | none => pure ()
    else
      restore
      onFailure

/-- Runs a command; its status is left in the shell. -/
def runCommand : Nat → Command → Eval Unit
  | 0, _ => throw .exhausted
  | fuel + 1, command => do
    if (← get).has 'n' then return
    match command with
    | .simple assignments words redirections =>
      runSimple fuel assignments words redirections
      answerSignals fuel
      Eval.checkFailure
    | .pipeline stages =>
      runStages fuel stages
      Eval.checkFailure
    | .negation body =>
      Eval.withTested true (runCommand fuel body)
      modify fun p => { p with status := if p.status = 0 then 1 else 0 }
    | .both first second =>
      Eval.withTested true (runCommand fuel first)
      if (← get).status = 0 then runCommand fuel second
    | .either first second =>
      Eval.withTested true (runCommand fuel first)
      if (← get).status ≠ 0 then runCommand fuel second
    | .sequence commands => commands.forM (runCommand fuel)
    | .background body =>
      let input := (← get).input
      modify ({ · with input := [] })
      Eval.isolated (finish fuel (runCommand fuel body))
      modify ({ · with input, status := 0 })
    | .subshell body =>
      Eval.isolated (finish fuel (runCommand fuel body))
      Eval.checkFailure
    | .redirected body redirections =>
      underRedirections fuel redirections (Eval.setStatus 2) (runCommand fuel body)
    | .branch condition body otherwise =>
      Eval.withTested true (runCommand fuel condition)
      if (← get).status = 0 then runCommand fuel body
      else
        Eval.setStatus 0
        runCommand fuel otherwise
    | .cycle untilSuccess condition body => runCycle fuel untilSuccess condition body 0
    | .each name words body =>
      let values ← match words with
        | some words => expandFields fuel words
        | none => pure (← get).parameters
      Eval.setStatus 0
      runEach fuel name values body
    | .select word arms =>
      let items ← expandWord fuel false word
      Eval.setStatus 0
      runArms fuel (Item.octets items) arms
    | .define name body =>
      modify fun p => { p with
        functions := (name, body) :: p.functions.filter (·.1 != name), status := 0 }

/-- Runs what is to be run on the signals that came. -/
def answerSignals : Nat → Eval Unit
  | 0 => throw .exhausted
  | fuel + 1 => do
    let p ← get
    match p.pending with
    | [] => pure ()
    | signal :: rest =>
      set { p with pending := rest }
      runScript fuel ((p.traps.lookup signal).getD [])
      Eval.setStatus p.status
      answerSignals fuel

/-- Runs something as a shell of its own, with nothing to run on signals but what it sets itself; at its
end it runs what it has set for that. -/
def finish : Nat → Eval Unit → Eval Unit
  | 0, _ => throw .exhausted
  | fuel + 1, body => do
    modify ({ · with traps := [] })
    let ended ← tryCatch (do body; pure none) fun stop => pure (some stop)
    let status ← match ended with
      | none => pure (← get).status
      | some (.exit status) | some (.back status) => pure status
      | some stop => throw stop
    let p ← get
    match p.traps.lookup 0 with
    | none => throw (.exit status)
    | some action =>
      set { p with traps := p.traps.filter (·.1 != 0), status }
      runScript fuel action
      throw (.exit status)

/-- Runs the lines of a script one after the other; each is read when its turn comes. -/
def runScript : Nat → Octets → Eval Unit
  | 0, _ => throw .exhausted
  | fuel + 1, script => do
    if Grammar.isSpent script then return
    match Grammar.nextLine script with
    | none => Eval.abort "Syntax error"
    | some (command, rest) =>
      runCommand fuel command
      runScript fuel rest

/-- Runs the body of a repetition once and tells whether to go on. -/
def runRound : Nat → Command → Eval Bool
  | 0, _ => throw .exhausted
  | fuel + 1, body => do
    modify fun p => { p with rounds := p.rounds + 1 }
    let ended ← tryCatch (do runCommand fuel body; pure none) fun stop => pure (some stop)
    modify fun p => { p with rounds := p.rounds - 1 }
    match ended with
    | none | some (.again 0) | some (.again 1) => return true
    | some (.leave 0) | some (.leave 1) => return false
    | some (.again (n + 1)) => throw (.again n)
    | some (.leave (n + 1)) => throw (.leave n)
    | some stop => throw stop

/-- Runs a repetition under a condition; its status is that of its last round. -/
def runCycle : Nat → Bool → Command → Command → Nat → Eval Unit
  | 0, _, _, _, _ => throw .exhausted
  | fuel + 1, untilSuccess, condition, body, status => do
    Eval.withTested true (runCommand fuel condition)
    if ((← get).status == 0) == untilSuccess then Eval.setStatus status
    else if ← runRound fuel body then
      runCycle fuel untilSuccess condition body (← get).status

/-- Runs a repetition over values. -/
def runEach : Nat → Octets → List Octets → Command → Eval Unit
  | 0, _, _, _ => throw .exhausted
  | _ + 1, _, [], _ => return
  | fuel + 1, name, value :: rest, body => do
    Eval.assign name value
    if ← runRound fuel body then runEach fuel name rest body

/-- Runs the first arm with a pattern that matches. -/
def runArms : Nat → Octets → List (List Word × Command) → Eval Unit
  | 0, _, _ => throw .exhausted
  | _ + 1, _, [] => return
  | fuel + 1, text, (patterns, body) :: rest => do
    let hits ← patterns.mapM fun word => do
      let items ← expandWord fuel false word
      return Pattern.matchesAll (Pattern.compile (Item.glyphs items)) text
    if hits.any id then runCommand fuel body else runArms fuel text rest

/-- Runs the stages of a pipeline, each reading what the one before it wrote. -/
def runStages : Nat → List Command → Eval Unit
  | 0, _ => throw .exhausted
  | _ + 1, [] => return
  | fuel + 1, [last] => Eval.isolated (finish fuel (runCommand fuel last))
  | fuel + 1, first :: rest => do
    let text ← Eval.piped (Eval.isolated (finish fuel (runCommand fuel first)))
    let left := (← get).input
    modify ({ · with input := text })
    runStages fuel rest
    modify ({ · with input := left })

/-- Runs a simple command. -/
def runSimple : Nat → List (Octets × Word) → List Word → List Redirection → Eval Unit
  | 0, _, _, _ => throw .exhausted
  | fuel + 1, assignments, words, redirections => do
    modify ({ · with substituted := none })
    let fields ← expandFields fuel words
    if (← get).has 'x' then Eval.complain "+"
    let bind : Eval Bindings := assignments.mapM fun (name, word) => do
      let items ← expandWord fuel false word
      return (name, Item.octets items)
    let assignAll (bindings : Bindings) : Eval Unit :=
      bindings.forM fun (name, value) => Eval.assign name value
    match fields with
    | [] =>
      underRedirections fuel redirections (Eval.setStatus 2) do
        let bindings ← bind
        assignAll bindings
        modify fun p => { p with status := p.substituted.getD 0 }
    | name :: args =>
      let word := String.ofList name
      match Builtin.special.lookup word with
      | some builtin =>
        underRedirections fuel redirections (throw (.exit 2)) do
          let bindings ← bind
          assignAll bindings
          let status ← builtin args
          Eval.setStatus status
      | none =>
        if word = "exec" && args.isEmpty then
          if !(← redirectAll fuel redirections) then throw (.exit 2)
          Eval.setStatus 0
        else
          underRedirections fuel redirections
              (if Builtin.runningSpecial.contains word then throw (.exit 2) else Eval.setStatus 2) do
            let bindings ← bind
            let before ← get
            assignAll bindings
            modify fun p => { p with exported := bindings.map (·.1) ++ p.exported }
            invoke fuel name args true
            let restore (p : Process) : Process :=
              bindings.foldl (fun p (name, _) =>
                match before.bindings.lookup name with
                | some value => p.assign name value
                | none => { p with bindings := p.bindings.filter (·.1 != name) })
                { p with exported := before.exported }
            if !bindings.isEmpty then modify restore

/-- Runs a function, a built-in command that is not special, or a program. -/
def invoke : Nat → Octets → List Octets → Bool → Eval Unit
  | 0, _, _, _ => throw .exhausted
  | fuel + 1, name, args, withFunctions => do
    let p ← get
    let word := String.ofList name
    match if withFunctions then p.functions.lookup name else none with
    | some body =>
      set { p with parameters := args, locals := some [] }
      let ended ← tryCatch (do runCommand fuel body; pure none) fun stop => pure (some stop)
      modify fun after => { Builtin.leaveFunction after with parameters := p.parameters, locals := p.locals }
      match ended with
      | some (.back status) => Eval.setStatus status
      | some stop => throw stop
      | none => pure ()
    | none =>
      match word, Builtin.regular.lookup word with
      | _, some builtin =>
        let status ← builtin args
        Eval.setStatus status
      | "eval", _ =>
        Eval.setStatus 0
        runScript fuel (List.intercalate [' '] args)
      | ".", _ =>
        match args with
        | [] => Eval.setStatus 0
        | name :: _ =>
          let along := (p.bindings.lookup "PATH".toList).getD usualPath
          let isReadable (path : Octets) : Bool :=
            match p.files.get path with
            | .ok (.file _ _) => true
            | _ => false
          let path := ((Image.candidates along name).find? isReadable).getD []
          match p.files.read path with
          | .error _ => Eval.abort (".: cannot open " ++ String.ofList name)
          | .ok script =>
            Eval.setStatus 0
            runScript fuel script
      | "type", _ => describe args
      | "command", _ =>
        match args with
        | [] => Eval.setStatus 0
        | ['-', 'v'] :: sought =>
          let shown := sought.head?.bind fun n => (p.kind? n).map (·.shown n)
          set (p.write 1 (Tool.unlines shown.toList))
          Eval.setStatus (if shown.isSome then 0 else 127)
        | ['-', 'V'] :: sought => describe (sought.take 1)
        | name :: args =>
          match Builtin.special.lookup (String.ofList name) with
          | some builtin =>
            let status ← builtin args
            Eval.setStatus status
          | none => invoke fuel name args false
      | "exec", _ =>
        match args with
        | [] => Eval.setStatus 0
        | name :: args =>
          runProgram fuel name args
          modify ({ · with traps := [] })
          throw (.exit (← get).status)
      | _, _ => runProgram fuel name args

/-- Finds and runs a program for the shell. -/
def runProgram : Nat → Octets → List Octets → Eval Unit
  | 0, _, _ => throw .exhausted
  | fuel + 1, name, args => do
    let p ← get
    let path := (p.bindings.lookup "PATH".toList).getD usualPath
    match if name.isEmpty then .error .noEntry else Image.findForShell p.files path (name :: args) with
    | .ok image =>
      let ended ← launch fuel image p.environment
      Eval.setStatus ended.status
    | .error .noEntry | .error .notDirectory =>
      Eval.complain (String.ofList name ++ ": not found")
      Eval.setStatus 127
    | .error e =>
      Eval.complain (String.ofList name ++ ": " ++ e.text)
      Eval.setStatus 126

/-- Runs a loaded program to its end. -/
def launch : Nat → Image → Bindings → Eval Ended
  | 0, _, _ => throw .exhausted
  | fuel + 1, image, environment => do
    let p ← get
    let args := image.arguments.drop 1
    match String.ofList image.program with
    | "sh" =>
      match errand p (image.arguments.headD []) [] args with
      | .error fault =>
        Eval.complain fault.text
        return .exited 2
      | .ok task =>
        set { p with
          bindings := initialVariables environment, exported := environment.map Prod.fst
          name := task.name, parameters := task.parameters
          status := 0, substituted := none, functions := [], rounds := 0, options := task.options
          fixed := [], locals := none, traps := [], pending := [], tested := false }
        let ended ← tryCatch (do finish fuel (runScript fuel task.script); pure none)
          fun stop => pure (some stop)
        let after ← get
        set (p.resume after)
        match ended with
        | some (.exit status) | some (.back status) => return .exited status
        | some (.killed signal) => return .killed signal
        | some .exhausted => throw .exhausted
        | some (.leave _) | some (.again _) | none => return .exited after.status
    | "env" =>
      let settings := args.takeWhile (·.contains '=')
      let environment := settings.foldl (fun (e : Bindings) word =>
        let (name, value) := Builtin.assignment word
        e.set name (value.getD [])) environment
      match args.drop settings.length with
      | [] =>
        set (p.write 1 (Tool.listed environment))
        return .exited 0
      | command =>
        let path := (environment.lookup "PATH".toList).getD "/bin:/usr/bin".toList
        match Image.find p.files path command with
        | .ok image => launch fuel image environment
        | .error .noEntry | .error .notDirectory =>
          Eval.complain "env: No such file or directory"
          return .exited 127
        | .error e =>
          Eval.complain ("env: " ++ e.text)
          return .exited 126
    | _ =>
      match Tool.run? image.program with
      | some run =>
        let done := run { args, environment, input := p.input, files := p.files }
        set (({ p with files := done.files, input := done.input }.write 1 done.output).write 2
          done.complaint)
        return .exited done.status
      | none => return .exited 127

end

/-- What a program run on its own leaves. -/
structure Outcome where
  ended : Ended
  output : Octets
  complaint : Octets
  files : Files

/-- The bound on the depth of a script. -/
def maxDepth : Nat := 20000

/-- Runs a loaded program on its own. -/
def run (files : Files) (image : Image) (environment : Bindings) (input : Octets) : Outcome :=
  let start : Process :=
    { files, input, targets := [(1, .pipe 0), (2, .pipe 1)], pipes := [[], []] }
  let (result, p) := StateT.run (ExceptT.run (launch maxDepth image environment)) start
  { ended := match result with
      | .ok ended => ended
      | .error _ => .exited 2
    output := p.pipes.getD 0 []
    complaint := p.pipes.getD 1 []
    files := { files with root := p.files.root } }

end InputScript.Shell
