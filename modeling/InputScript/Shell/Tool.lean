import InputScript.Shell.Condition
import InputScript.Shell.Printing

/-!
# Tools

The native programs of a host: small tools that turn arguments, input and files into output and an
exit status.
-/

namespace InputScript.Shell

/-- What a program is given. -/
structure Job where
  args : List Octets
  environment : Bindings
  input : Octets
  files : Files

/-- What a program leaves. -/
structure Done where
  status : Nat := 0
  output : Octets := []
  complaint : Octets := []
  /-- What it left of its input. -/
  input : Octets := []
  files : Files

namespace Job

/-- Succeeds with some output. -/
def print (job : Job) (output : Octets) : Done :=
  { output, input := job.input, files := job.files }

/-- Fails with a complaint. -/
def refuse (job : Job) (status : Nat) (complaint : String) : Done :=
  { status, complaint := (complaint ++ "\n").toList, input := job.input, files := job.files }

/-- Answers after reading all input, complaining about files that cannot be read. -/
def answer (job : Job) (output : Octets) (bad : List (Octets × Errno)) : Done :=
  { status := if bad.isEmpty then 0 else 1
    output
    complaint := bad.flatMap fun (name, e) => name ++ (": " ++ e.text ++ "\n").toList
    files := job.files }

end Job

namespace Tool

/-- The lines of a text without their ends. -/
def lines (text : Octets) : List Octets :=
  let pieces := text.splitOn '\n'
  if pieces.getLast? = some [] then pieces.dropLast else pieces

def unlines (ls : List Octets) : Octets := ls.flatMap (· ++ ['\n'])

/-- The contents of the named files in order, a dash being the input, and the names that cannot be
read. Without a name the input is read. -/
def contents (job : Job) (names : List Octets) : List Octets × List (Octets × Errno) :=
  if names.isEmpty then ([job.input], [])
  else
    names.foldr (fun name (texts, bad) =>
      if name = ['-'] then (job.input :: texts, bad)
      else
        match job.files.read name with
        | .ok text => (text :: texts, bad)
        | .error e => (texts, (name, e) :: bad)) ([], [])

/-- Whether an argument is an option. -/
def isOption (arg : Octets) : Bool := arg.head? = some '-' && 1 < arg.length

def cat (job : Job) : Done :=
  let names := job.args.filter fun a => !isOption a
  let (texts, bad) := contents job names
  job.answer texts.flatten bad

/-- Ranges and escapes in a set of octets written out; the bound is at least its length. -/
def octetSet : Nat → Octets → Octets
  | 0, _ => []
  | _ + 1, [] => []
  | bound + 1, '\\' :: rest =>
    let (c, tail) := Printing.escape rest
    c :: octetSet bound tail
  | bound + 1, '[' :: ':' :: rest =>
    let name := rest.takeWhile Char.isLower
    match rest.drop name.length with
    | ':' :: ']' :: tail =>
      let members := (List.range 256).map Char.ofNat |>.filter fun c =>
        match String.ofList name with
        | "upper" => c.isUpper
        | "lower" => c.isLower
        | "digit" => c.isDigit
        | "alpha" => c.isAlpha
        | "alnum" => c.isAlphanum
        | "space" => Arithmetic.isSpace c
        | "blank" => c == ' ' || c == '\t'
        | "punct" => 33 ≤ c.toNat && c.toNat ≤ 126 && !c.isAlphanum
        | _ => false
      members ++ octetSet bound tail
    | _ => '[' :: octetSet bound (':' :: rest)
  | bound + 1, a :: '-' :: b :: rest =>
    (List.range (b.toNat + 1 - a.toNat)).map (fun i => Char.ofNat (a.toNat + i)) ++ octetSet bound rest
  | bound + 1, c :: rest => c :: octetSet bound rest

/-- Replaces each run of an octet of a set by one. -/
def squeeze (members : Octets) : Octets → Octets
  | [] => []
  | c :: rest =>
    let more := squeeze members rest
    if members.contains c && more.head? = some c then more else c :: more

def tr (job : Job) : Done :=
  let options := (job.args.takeWhile isOption).flatMap (·.drop 1)
  let complement := options.contains 'c' || options.contains 'C'
  let sets := (job.args.dropWhile isOption).map fun s => octetSet s.length s
  let expand (s : Octets) : Octets :=
    if complement then (List.range 256).map Char.ofNat |>.filter fun c => !s.contains c else s
  match sets with
  | [first] =>
    let first := expand first
    if options.contains 'd' then
      job.answer (job.input.filter fun c => !first.contains c) []
    else if options.contains 's' then job.answer (squeeze first job.input) []
    else job.refuse 1 "tr: missing operand"
  | [first, second] =>
    let first := expand first
    if options.contains 'd' then
      let kept := job.input.filter fun c => !first.contains c
      job.answer (if options.contains 's' then squeeze second kept else kept) []
    else
      match second.getLast? with
      | none => job.refuse 1 "tr: when not truncating set1, string2 must be non-empty"
      | some last =>
        let replaced := job.input.map fun c =>
          if first.contains c then second.getD (first.idxOf c) last else c
        job.answer (if options.contains 's' then squeeze second replaced else replaced) []
  | _ => job.refuse 1 "tr: missing operand"

/-- The number of words between blanks. -/
def countWords (text : Octets) : Nat :=
  let step := fun (n, inWord) c =>
    if Arithmetic.isSpace c then (n, false) else (if inWord then n else n + 1, true)
  (text.foldl step ((0 : Nat), false)).1

/-- Right-aligns a number. -/
def alignRight (width n : Nat) : Octets :=
  let digits := (Text.decimal n).toList
  List.replicate (width - digits.length) ' ' ++ digits

def wc (job : Job) : Done :=
  let options := (job.args.filter isOption).flatMap (·.drop 1)
  let names := job.args.filter fun a => !isOption a
  let options := if options.isEmpty then ['l', 'w', 'c'] else options
  let counts (text : Octets) : List Nat :=
    (if options.contains 'l' then [text.count '\n'] else [])
      ++ (if options.contains 'w' then [countWords text] else [])
      ++ (if options.contains 'c' || options.contains 'm' then [text.length] else [])
  let (texts, bad) := contents job names
  let total := texts.flatten
  let width :=
    if (counts total).length == 1 && texts.length ≤ 1 then 1
    else if names.isEmpty then 7 else (Text.decimal total.length).length
  let row (text : Octets) (label : Octets) : Octets :=
    List.intercalate [' '] ((counts text).map (alignRight width)
      ++ (if label.isEmpty then [] else [label])) ++ ['\n']
  let readable := names.filter fun name => !bad.any (·.1 == name)
  let rows := if names.isEmpty then [row total []] else (texts.zip readable).map fun (t, n) => row t n
  let sum := if 1 < names.length then [row total ("total".toList)] else []
  job.answer (rows ++ sum).flatten bad

/-- How much of a text an option asks for. -/
structure Extent where
  count : Nat := 10
  /-- Whether octets are counted, not lines. -/
  octets : Bool := false

/-- The extent that options ask for and the names that remain. -/
def extent : List Octets → Extent × List Octets
  | ['-', 'n'] :: n :: rest => ({ count := ((String.ofList n).toNat?).getD 10 }, rest)
  | ['-', 'c'] :: n :: rest => ({ count := ((String.ofList n).toNat?).getD 10, octets := true }, rest)
  | ('-' :: 'n' :: digits) :: rest => ({ count := ((String.ofList digits).toNat?).getD 10 }, rest)
  | ('-' :: 'c' :: digits) :: rest =>
    ({ count := ((String.ofList digits).toNat?).getD 10, octets := true }, rest)
  | ('-' :: digits) :: rest => ({ count := ((String.ofList digits).toNat?).getD 10 }, rest)
  | args => ({}, args)

def head (job : Job) : Done :=
  let (wanted, names) := extent job.args
  let (texts, bad) := contents job names
  let cut (text : Octets) : Octets :=
    if wanted.octets then text.take wanted.count
    else
      let kept := (lines text).take wanted.count
      if kept.length == (lines text).length then text else unlines kept
  job.answer (texts.map cut).flatten bad

def tail (job : Job) : Done :=
  let (wanted, names) := extent job.args
  let (texts, bad) := contents job names
  let cut (text : Octets) : Octets :=
    if wanted.octets then text.drop (text.length - wanted.count)
    else
      let all := lines text
      let kept := unlines (all.drop (all.length - wanted.count))
      if text.getLast? = some '\n' then kept else kept.dropLast
  job.answer (texts.map cut).flatten bad

def sort (job : Job) : Done :=
  let options := (job.args.filter isOption).flatMap (·.drop 1)
  let (texts, bad) := contents job (job.args.filter fun a => !isOption a)
  let all := texts.flatMap lines
  let value (line : Octets) : Int := (Printing.argumentInteger line).1
  let order (a b : Octets) : Bool :=
    if options.contains 'n' then value a < value b || (value a == value b && Octets.le a b)
    else Octets.le a b
  let sorted := all.mergeSort order
  let sorted := if options.contains 'r' then sorted.reverse else sorted
  job.answer (unlines (if options.contains 'u' then sorted.eraseReps else sorted)) bad

def uniq (job : Job) : Done :=
  let options := (job.args.filter isOption).flatMap (·.drop 1)
  let (texts, bad) := contents job (job.args.filter fun a => !isOption a)
  let runs := (texts.flatMap lines).splitBy (· == ·)
  let row (run : List Octets) : Octets :=
    if options.contains 'c' then alignRight 7 run.length ++ ' ' :: run.headD [] else run.headD []
  job.answer (unlines (runs.map row)) bad

def rev (job : Job) : Done :=
  let (texts, bad) := contents job (job.args.filter fun a => !isOption a)
  job.answer (unlines ((texts.flatMap lines).map List.reverse)) bad

/-- The integers from one to another by a step; the bound is their greatest number. -/
def integersFrom (step last : Int) : Nat → Int → List Int
  | 0, _ => []
  | bound + 1, n =>
    if (0 < step && n ≤ last) || (step < 0 && last ≤ n) then
      n :: integersFrom step last bound (n + step)
    else []

def seq (job : Job) : Done :=
  let values := job.args.map fun a => (String.ofList a).toInt?
  let print (first step last : Int) : Done :=
    let count := if step = 0 then 0 else ((last - first) / step + 1).toNat
    let numbers := integersFrom step last count first
    job.answer (unlines (numbers.map fun n => (Text.decimalInt n).toList)) []
  match values with
  | [some last] => print 1 1 last
  | [some first, some last] => print first 1 last
  | [some first, some step, some last] => print first step last
  | _ => job.refuse 1 "seq: invalid argument"

/-- The last component of a path without slashes at its end. -/
def baseName (path : Octets) : Octets :=
  let trimmed := (path.reverse.dropWhile (· == '/')).reverse
  if trimmed.isEmpty then path.take 1 else (trimmed.reverse.takeWhile (· != '/')).reverse

/-- A path without its last component. -/
def parentName (path : Octets) : Octets :=
  let trimmed := path.reverse.dropWhile (· == '/')
  let parent := (trimmed.dropWhile (· != '/')).dropWhile (· == '/')
  if trimmed.isEmpty then (if path.isEmpty then ['.'] else ['/'])
  else if parent.isEmpty then (if trimmed.contains '/' then ['/'] else ['.'])
  else parent.reverse

/-- Does something to the place of each named file in turn. -/
def onPlaces (job : Job) (act : Files → Octets → Except Errno Files) : Done :=
  let names := job.args.filter fun a => !isOption a
  let step := fun (files, bad) name =>
    match act files name with
    | .ok files => (files, bad)
    | .error e => (files, bad ++ [(name, e)])
  let (files, bad) := names.foldl step (job.files, ([] : List (Octets × Errno)))
  { job.answer [] bad with files, input := job.input }

def touch (job : Job) : Done :=
  onPlaces job fun files name => do
    let names ← files.place name
    match files.root.get names with
    | .ok _ => return files
    | .error _ => return files.write names []

def rm (job : Job) : Done :=
  let options := (job.args.filter isOption).flatMap (·.drop 1)
  onPlaces job fun files name =>
    match files.resolve name with
    | .error e => if options.contains 'f' then .ok files else .error e
    | .ok names =>
      match files.root.get names with
      | .ok (.directory _) =>
        if options.contains 'r' then .ok { files with root := files.root.remove names }
        else .error .isDirectory
      | _ => .ok { files with root := files.root.remove names }

def mkdir (job : Job) : Done :=
  onPlaces job fun files name => do
    let names ← files.place name
    match files.root.get names with
    | .ok _ => throw .invalidArgument
    | .error _ => return { files with root := files.root.put .emptyDirectory names }

def tee (job : Job) : Done :=
  let append := (job.args.filter isOption).any (·.contains 'a')
  let done := onPlaces job fun files name => do
    let names ← files.place name
    return if append then files.append names job.input else files.write names job.input
  { done with output := job.input, input := [] }

/-- Copies one file to another place. -/
def copyFile (files : Files) (source target : Octets) : Except Errno Files := do
  let node ← files.get source
  if node.isDirectory then throw .isDirectory
  let place ← match files.get target with
    | .ok (.directory _) => files.place (target ++ ['/'] ++ baseName source)
    | _ => files.place target
  return { files with root := files.root.put node place }

def copy (moves : Bool) (job : Job) : Done :=
  match job.args.filter fun a => !isOption a with
  | [source, target] =>
    match copyFile job.files source target with
    | .ok files =>
      let files :=
        match moves, files.resolve source with
        | true, .ok names => { files with root := files.root.remove names }
        | _, _ => files
      { files, input := job.input }
    | .error e => job.answer [] [(source, e)]
  | _ => job.refuse 1 "missing file operand"

def ls (job : Job) : Done :=
  let options := (job.args.filter isOption).flatMap (·.drop 1)
  let names := job.args.filter fun a => !isOption a
  let shown (path : Octets) : Octets :=
    match job.files.get path, options.contains 'd' with
    | .ok (.directory _), false =>
      let all := job.files.list path
      unlines (if options.contains 'a' then ['.'] :: ['.', '.'] :: all
        else if options.contains 'A' then all
        else all.filter (·.head? != some '.'))
    | _, _ => path ++ ['\n']
  let names := if names.isEmpty then [['.']] else names
  let (good, bad) := names.partition fun n => (job.files.get n).isOk
  { job.answer (good.map shown).flatten (bad.map fun n => (n, .noEntry)) with
    status := if bad.isEmpty then 0 else 2 }

/-- Prints arguments as they are; `-n` leaves out the line end and `-e` replaces escapes. -/
def echo (job : Job) : Done :=
  let isFlag (a : Octets) : Bool :=
    a.head? = some '-' && 1 < a.length && (a.drop 1).all fun c => c == 'n' || c == 'e' || c == 'E'
  let flags := (job.args.takeWhile isFlag).flatMap (·.drop 1)
  let text := List.intercalate [' '] (job.args.dropWhile isFlag)
  let (text, stopped) := if flags.contains 'e' then Printing.unescape text else (text, false)
  job.print (if flags.contains 'n' || stopped then text else text ++ ['\n'])

def printf (job : Job) : Done :=
  match if job.args.head? = some ['-', '-'] then job.args.drop 1 else job.args with
  | [] => job.refuse 2 "printf: usage: printf format [arg ...]"
  | format :: args =>
    let (output, fit) := Printing.fill format args
    { job.print output with
      status := if fit then 0 else 1
      complaint := if fit then [] else "printf: expected numeric value\n".toList }

/-- The test command; in brackets the last argument closes them. -/
def test (bracketed : Bool) (job : Job) : Done :=
  let args? :=
    if bracketed then
      if job.args.getLast? = some [']'] then some job.args.dropLast else none
    else some job.args
  match args?.bind fun args => Condition.evaluate job.files (args.length + 1) args with
  | some true => { job.print [] with status := 0 }
  | some false => { job.print [] with status := 1 }
  | none => job.refuse 2 "test: malformed condition"

/-- The variables as lines. -/
def listed (environment : Bindings) : Octets :=
  unlines (environment.map fun (name, value) => name ++ ['='] ++ value)

def printenv (job : Job) : Done :=
  match job.args with
  | [] => job.print (listed job.environment)
  | names =>
    let values := names.filterMap fun name => job.environment.lookup name
    { job.print (unlines values) with
      status := if values.length == names.length then 0 else 1 }

/-- The path of the working directory. -/
def workingPath (files : Files) : Octets :=
  if files.working.isEmpty then ['/'] else files.working.flatMap ('/' :: ·)

/-- The tools by name. -/
def table : List (String × (Job → Done)) :=
  [("true", fun job => job.print []),
   ("false", fun job => { job.print [] with status := 1 }),
   ("sleep", fun job => job.print []),
   ("echo", echo), ("printf", printf), ("test", test false), ("[", test true),
   ("printenv", printenv), ("pwd", fun job => job.print (workingPath job.files ++ ['\n'])),
   ("cat", cat), ("tr", tr), ("wc", wc), ("head", head), ("tail", tail), ("sort", sort),
   ("uniq", uniq), ("rev", rev), ("seq", seq), ("tee", tee),
   ("basename", fun job =>
     match job.args with
     | [] => job.refuse 1 "basename: missing operand"
     | [path] => job.print (baseName path ++ ['\n'])
     | path :: ending :: _ =>
       let name := baseName path
       let cut := name.length - ending.length
       job.print ((if name.drop cut == ending && 0 < cut then name.take cut else name) ++ ['\n'])),
   ("dirname", fun job =>
     match job.args with
     | [] => job.refuse 1 "dirname: missing operand"
     | paths => job.print (unlines (paths.map parentName))),
   ("touch", touch), ("rm", rm), ("rmdir", rm), ("mkdir", mkdir), ("cp", copy false),
   ("mv", copy true), ("ls", ls)]

/-- Runs a tool. -/
def run? (name : Octets) : Option (Job → Done) := table.lookup (String.ofList name)

end Tool

end InputScript.Shell
