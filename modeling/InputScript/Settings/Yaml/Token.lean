import InputScript.Settings.Yaml.Scalar

/-!
# YAML tokens

The scanner cuts a text into tokens. Outside brackets the structure is given by indentation: a deeper
column opens a collection, a shallower one closes it. Whether something is a key shows only at the
colon after it, so the scanner remembers for each bracket level where a key may have started and
inserts the token of the key there.

Anchors, tags, directives and block scalars are not read.
-/

namespace InputScript.Yaml

/-- A piece of the structure of a text. -/
inductive Token
  | documentStart
  | documentEnd
  | blockSequenceStart
  | blockMappingStart
  | blockEnd
  | flowSequenceStart
  | flowSequenceEnd
  | flowMappingStart
  | flowMappingEnd
  | blockEntry
  | flowEntry
  | key
  | value
  | plain (text : String)
  /-- A quoted scalar by its code points, among which escapes may put some that are no characters. -/
  | quoted (codes : List Nat)
deriving DecidableEq, Repr

/-- A place where a key may have started. -/
structure PossibleKey where
  /-- The number of tokens before it. -/
  place : Nat
  /-- Whether there has to be a key here. -/
  required : Bool
  index : Nat
  line : Nat
  column : Nat
deriving DecidableEq, Repr

/-- The state of the scanner. -/
structure Scanner where
  rest : List Char
  index : Nat := 0
  line : Nat := 0
  column : Nat := 0
  /-- How many brackets are open. -/
  flow : Nat := 0
  /-- The column of the innermost block collection. -/
  indent : Int := -1
  /-- The columns of those around it. -/
  indents : List Int := []
  /-- Whether a key may start here. -/
  keyAllowed : Bool := true
  /-- The possible keys by bracket level. -/
  keys : List (Nat × PossibleKey) := []
  tokens : Array Token := #[]

/-- A step of the scanner; it fails where the text is malformed. -/
abbrev Scan := StateT Scanner Option

namespace Scan

def isBreak (c : Char) : Bool :=
  c == '\n' || c == '\r' || c.toNat == 0x85 || c.toNat == 0x2028 || c.toNat == 0x2029

/-- Whether a character, or the end of the text, is blank. -/
def isBlankOrEnd : Option Char → Bool
  | none => true
  | some c => c == ' ' || c == '\t' || isBreak c

/-- Moves over one character. -/
def step (s : Scanner) : Scanner :=
  match s.rest with
  | [] => s
  | c :: rest =>
    if isBreak c && !(c == '\r' && rest.head? = some '\n') then
      { s with rest, index := s.index + 1, line := s.line + 1, column := 0 }
    else if c.toNat == 0xFEFF then { s with rest, index := s.index + 1 }
    else { s with rest, index := s.index + 1, column := s.column + 1 }

/-- Moves over characters. -/
def forward (n : Nat) : Scan Unit :=
  modify fun s => n.repeat step s

/-- The character at a distance. -/
def peek (n : Nat := 0) : Scan (Option Char) := return (← get).rest[n]?

/-- Emits a token. -/
def emit (t : Token) : Scan Unit := modify fun s => { s with tokens := s.tokens.push t }

/-- Requires a condition. -/
def require (condition : Bool) : Scan Unit := if condition then pure () else failure

/-- Whether a document marker stands here. -/
def markerAhead (cs : List Char) : Bool :=
  ((cs.take 3 == ['-', '-', '-']) || (cs.take 3 == ['.', '.', '.'])) && isBlankOrEnd cs[3]?

/-! ## Keys and indentation -/

/-- Forgets the possible key of this level; it must not have been required. -/
def dropKey : Scan Unit := do
  let s ← get
  match s.keys.lookup s.flow with
  | some key =>
    require !key.required
    set { s with keys := s.keys.filter (·.1 != s.flow) }
  | none => pure ()

/-- Remembers that a key may start here. -/
def saveKey : Scan Unit := do
  let s ← get
  if s.keyAllowed then
    dropKey
    let key : PossibleKey :=
      { place := s.tokens.size
        required := s.flow == 0 && s.indent == (s.column : Int)
        index := s.index
        line := s.line
        column := s.column }
    modify fun t => { t with keys := (s.flow, key) :: t.keys }

/-- Forgets the possible keys that are too far back: on another line or too many characters ago. -/
def dropStaleKeys : Scan Unit := do
  let s ← get
  let isStale (key : PossibleKey) : Bool := key.line != s.line || key.index + 1024 < s.index
  require (s.keys.all fun (_, key) => !(isStale key && key.required))
  set { s with keys := s.keys.filter fun (_, key) => !isStale key }

/-- Closes the block collections that are indented deeper than a column. -/
def unwindTo (column : Int) : Nat → Scanner → Scanner
  | 0, s => s
  | bound + 1, s =>
    if column < s.indent then
      unwindTo column bound { s with
        indent := s.indents.headD (-1), indents := s.indents.drop 1
        tokens := s.tokens.push .blockEnd }
    else s

def unwind (column : Int) : Scan Unit :=
  modify fun s => if s.flow = 0 then unwindTo column (s.indents.length + 1) s else s

/-- Opens a block collection at a column if it is deeper than the current one, putting its token at the
given place. -/
def openBlock (column place : Nat) (t : Token) : Scan Unit :=
  modify fun s =>
    if s.indent < (column : Int) then
      { s with
        indents := s.indent :: s.indents, indent := column
        tokens := s.tokens.insertIdxIfInBounds place t }
    else s

/-- Whether a key may start from here on. -/
def allowKey (allowed : Bool) : Scan Unit := modify ({ · with keyAllowed := allowed })

/-! ## Scalars -/

/-- Takes a line break. -/
def takeBreak : Scan Char := do
  match (← get).rest with
  | '\r' :: '\n' :: _ =>
    forward 2
    return '\n'
  | c :: _ =>
    forward 1
    return if c.toNat == 0x2028 || c.toNat == 0x2029 then c else '\n'
  | [] => failure

/-- The text that a line break with further empty lines stands for. -/
def folded (first : Char) (breaks : List Char) : List Char :=
  if first != '\n' then first :: breaks
  else if breaks.isEmpty then [' ']
  else breaks

/-- The breaks and blanks between the lines of a plain scalar; `none` at a document marker. -/
def plainBreaks : Nat → Scan (Option (List Char))
  | 0 => failure
  | bound + 1 => do
    match ← peek with
    | some ' ' =>
      forward 1
      plainBreaks bound
    | some c =>
      if isBreak c then
        let b ← takeBreak
        if markerAhead (← get).rest then return none
        let more ← plainBreaks bound
        return more.map (b :: ·)
      else return some []
    | none => return some []

/-- The blanks after a piece of a plain scalar, as far as they belong to it. -/
def plainSpaces : Scan (List Char) := do
  let s ← get
  let blanks := s.rest.takeWhile (· == ' ')
  forward blanks.length
  match ← peek with
  | some c =>
    if isBreak c then
      let first ← takeBreak
      allowKey true
      let s ← get
      if markerAhead s.rest then return []
      match ← plainBreaks (2 * s.rest.length + 2) with
      | some breaks => return folded first breaks
      | none => return []
    else return blanks
  | none => return blanks

/-- How many characters of a plain scalar follow. -/
def plainLength (inFlow : Bool) : List Char → Nat
  | [] => 0
  | c :: rest =>
    let isBracket (d : Char) : Bool :=
      d == ',' || d == '[' || d == ']' || d == '\x7b' || d == '\x7d'
    if isBlankOrEnd (some c) then 0
    else if c == ':' && (isBlankOrEnd rest.head? || (inFlow && rest.head?.any isBracket)) then 0
    else if inFlow && (isBracket c || c == '?') then 0
    else plainLength inFlow rest + 1

/-- The characters of a plain scalar, given the blanks before the next piece. -/
def plainChars : Nat → List Char → Scan (List Char)
  | 0, _ => failure
  | bound + 1, blanks => do
    let s ← get
    if s.rest.head? = some '#' then return []
    let n := plainLength (s.flow != 0) s.rest
    if n = 0 then return []
    allowKey false
    forward n
    let indent := s.indent + 1
    let next ← plainSpaces
    let t ← get
    if next.isEmpty || t.rest.head? = some '#' || (t.flow == 0 && (t.column : Int) < indent) then
      return blanks ++ s.rest.take n
    else
      let more ← plainChars bound next
      return blanks ++ s.rest.take n ++ more

/-- The characters that a letter after a backslash stands for. -/
def escapes : List (Char × Nat) :=
  [('0', 0), ('a', 7), ('b', 8), ('t', 9), ('\t', 9), ('n', 10), ('v', 11), ('f', 12), ('r', 13),
   ('e', 27), (' ', 32), ('"', 34), ('\\', 92), ('/', 47), ('N', 0x85), ('_', 0xA0), ('L', 0x2028),
   ('P', 0x2029)]

/-- How many hexadecimal digits follow a letter after a backslash. -/
def escapeWidths : List (Char × Nat) := [('x', 2), ('u', 4), ('U', 8)]

/-- The breaks and blanks between the lines of a quoted scalar. -/
def quotedBreaks : Nat → Scan (List Char)
  | 0 => failure
  | bound + 1 => do
    let s ← get
    require !(s.column == 0 && markerAhead s.rest)
    let blanks := s.rest.takeWhile fun c => c == ' ' || c == '\t'
    forward blanks.length
    match ← peek with
    | some c =>
      if isBreak c then
        let b ← takeBreak
        let more ← quotedBreaks bound
        return b :: more
      else return []
    | none => return []

/-- The code points of a quoted scalar up to its closing quote. -/
def quotedCodes (quote : Char) : Nat → Scan (List Nat)
  | 0 => failure
  | bound + 1 => do
    let s ← get
    match s.rest with
    | [] => failure
    | c :: rest =>
      let literal (codes : List Nat) (taken : Nat) : Scan (List Nat) := do
        forward taken
        let more ← quotedCodes quote bound
        return codes ++ more
      if c = quote then
        if quote = '\'' && rest.head? = some '\'' then literal ['\''.toNat] 2 else return []
      else if c == ' ' || c == '\t' then
        let blanks := s.rest.takeWhile fun d => d == ' ' || d == '\t'
        match s.rest.drop blanks.length with
        | d :: _ =>
          let kept := if isBreak d then [] else blanks.map Char.toNat
          literal kept blanks.length
        | [] => failure
      else if isBreak c then
        let first ← takeBreak
        let breaks ← quotedBreaks (s.rest.length + 1)
        let more ← quotedCodes quote bound
        return (folded first breaks).map Char.toNat ++ more
      else if c = '\\' && quote = '"' then
        match rest with
        | [] => failure
        | d :: digits =>
          match escapes.lookup d, escapeWidths.lookup d with
          | some n, _ => literal [n] 2
          | none, some width =>
            match (digits.take width).mapM (Number.digitIn? 16) with
            | some values =>
              require (values.length == width)
              literal [Number.positional 16 values] (width + 2)
            | none => failure
          | none, none =>
            if isBreak d then
              forward 1
              let _ ← takeBreak
              let breaks ← quotedBreaks (s.rest.length + 1)
              let more ← quotedCodes quote bound
              return breaks.map Char.toNat ++ more
            else failure
      else literal [c.toNat] 1

/-! ## Tokens -/

/-- Skips blanks, comments and line breaks; after a line break outside brackets a key may start. -/
def skipToToken : Nat → Scan Unit
  | 0 => failure
  | bound + 1 => do
    let s ← get
    let blanks := s.rest.takeWhile (· == ' ')
    forward blanks.length
    let s ← get
    if s.rest.head? = some '#' then
      forward (s.rest.takeWhile fun c => !isBreak c).length
    match ← peek with
    | some c =>
      if isBreak c then
        let _ ← takeBreak
        if s.flow = 0 then allowKey true
        skipToToken bound
    | none => pure ()

/-- Whether a plain scalar starts here. -/
def startsPlain (inFlow : Bool) : List Char → Bool
  | [] => false
  | c :: rest =>
    let isIndicator :=
      isBlankOrEnd (some c) || "-?:,[]\x7b\x7d#&*!|>'\"%@`".toList.contains c
    !isIndicator || (!isBlankOrEnd rest.head? && (c == '-' || (!inFlow && (c == '?' || c == ':'))))

/-- Emits a document marker. -/
def emitMarker (t : Token) : Scan Unit := do
  unwind (-1)
  dropKey
  allowKey false
  forward 3
  emit t

/-- Emits an opening bracket. -/
def openBracket (t : Token) : Scan Unit := do
  saveKey
  allowKey true
  modify fun s => { s with flow := s.flow + 1 }
  forward 1
  emit t

/-- Emits a closing bracket. -/
def closeBracket (t : Token) : Scan Unit := do
  dropKey
  let s ← get
  require (s.flow != 0)
  set { s with flow := s.flow - 1 }
  allowKey false
  forward 1
  emit t

/-- Emits the dash of a sequence entry. -/
def emitEntry : Scan Unit := do
  let s ← get
  if s.flow = 0 then
    require s.keyAllowed
    openBlock s.column s.tokens.size .blockSequenceStart
  allowKey true
  dropKey
  forward 1
  emit .blockEntry

/-- Emits the sign of an explicit key. -/
def emitKey : Scan Unit := do
  let s ← get
  if s.flow = 0 then
    require s.keyAllowed
    openBlock s.column s.tokens.size .blockMappingStart
  allowKey (s.flow = 0)
  dropKey
  forward 1
  emit .key

/-- Emits the colon before a value, marking the key before it if there is one. -/
def emitValue : Scan Unit := do
  let s ← get
  match s.keys.lookup s.flow with
  | some key =>
    set { s with
      keys := s.keys.filter (·.1 != s.flow)
      tokens := s.tokens.insertIdxIfInBounds key.place .key }
    if s.flow = 0 then openBlock key.column key.place .blockMappingStart
    allowKey false
  | none =>
    if s.flow = 0 then
      require s.keyAllowed
      openBlock s.column s.tokens.size .blockMappingStart
    allowKey (s.flow = 0)
    dropKey
  forward 1
  emit .value

/-- Emits a quoted scalar. -/
def emitQuoted (quote : Char) : Scan Unit := do
  saveKey
  allowKey false
  forward 1
  let codes ← quotedCodes quote ((← get).rest.length + 1)
  forward 1
  emit (.quoted codes)

/-- Emits a plain scalar. -/
def emitPlain : Scan Unit := do
  saveKey
  allowKey false
  let chars ← plainChars ((← get).rest.length + 1) []
  emit (.plain (String.ofList chars))

/-- Emits the next token and tells whether there was one. -/
def next : Scan Bool := do
  skipToToken ((← get).rest.length + 1)
  dropStaleKeys
  unwind (← get).column
  let s ← get
  let inFlow := s.flow != 0
  match s.rest with
  | [] =>
    unwind (-1)
    dropKey
    return false
  | c :: rest =>
    let beforeBlank := isBlankOrEnd rest.head?
    if s.column = 0 && markerAhead s.rest then
      emitMarker (if c = '-' then .documentStart else .documentEnd)
    else if c = '[' then openBracket .flowSequenceStart
    else if c = '\x7b' then openBracket .flowMappingStart
    else if c = ']' then closeBracket .flowSequenceEnd
    else if c = '\x7d' then closeBracket .flowMappingEnd
    else if c = ',' then
      allowKey true
      dropKey
      forward 1
      emit .flowEntry
    else if c = '-' && beforeBlank then emitEntry
    else if c = '?' && (inFlow || beforeBlank) then emitKey
    else if c = ':' && (inFlow || beforeBlank) then emitValue
    else if c = '\'' || c = '"' then emitQuoted c
    else if startsPlain inFlow s.rest then emitPlain
    else failure
    return true

/-- Emits all tokens. -/
def all : Nat → Scan Unit
  | 0 => failure
  | bound + 1 => do
    if ← next then all bound

end Scan

/-- Whether a character may stand in a text at all. -/
def isPrintable (c : Char) : Bool :=
  let n := c.toNat
  n == 0x09 || n == 0x0A || n == 0x0D || (0x20 ≤ n && n ≤ 0x7E) || n == 0x85
    || (0xA0 ≤ n && n ≤ 0xD7FF) || (0xE000 ≤ n && n ≤ 0xFFFD) || 0x10000 ≤ n

/-- The tokens of a text; `none` if it is malformed. A byte order mark in front is skipped. -/
def tokens? (text : String) : Option (List Token) :=
  let cs := text.toList
  if cs.all isPrintable then
    let rest := if cs.head?.any (·.toNat == 0xFEFF) then cs.drop 1 else cs
    ((Scan.all (cs.length + 2)).run { rest }).map fun (_, s) => s.tokens.toList
  else none

end InputScript.Yaml
