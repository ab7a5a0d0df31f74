import InputScript.Settings.Yaml.Token

/-!
# YAML documents

The value that a text with at most one document holds. The tokens are first put together to nodes, which
have only structure; after that the nodes are given their values. Missing keys and values are null; of
entries with the same key the last one counts.

The key `<<` takes the entries of its mapping, or of a list of mappings, into the mapping it stands in.
Those that the mapping has itself count before them, and those of an earlier mapping of the list before
those of a later one.
-/

namespace InputScript.Yaml

/-- Why a text is not read. -/
inductive Fault
  | malformed
  /-- A number, date or character that is none. -/
  | badNumber
  /-- The number of a character has more than thirty-one bits. -/
  | hugeCode
deriving DecidableEq, Repr

/-- A part of a document. -/
inductive Node
  | plain (text : String)
  | quoted (codes : List Nat)
  | sequence (items : List Node)
  | mapping (entries : List (Node × Node))
deriving Inhabited

/-- What stands where nothing is written. -/
def Node.missing : Node := .plain ""

/-! ## Composition -/

/-- The tokens at which a node of a block mapping is missing. -/
def endsBlockNode : Option Token → Bool
  | some .key | some .value | some .blockEnd => true
  | _ => false

/-- The tokens at which a node of a flow mapping is missing. -/
def endsFlowNode : Option Token → Bool
  | some .flowEntry | some .flowMappingEnd => true
  | _ => false

mutual

/-- Reads a node. `inBlock` admits block collections, `indentless` a sequence that is not indented. -/
def readNode : Nat → Bool → Bool → List Token → Except Fault (Node × List Token)
  | 0, _, _, _ => .error .malformed
  | fuel + 1, inBlock, indentless, tokens =>
    match tokens, inBlock, indentless with
    | .blockEntry :: _, _, true => do
      let (items, rest) ← readIndentless fuel tokens
      return (.sequence items, rest)
    | .plain text :: rest, _, _ => .ok (.plain text, rest)
    | .quoted codes :: rest, _, _ => .ok (.quoted codes, rest)
    | .flowSequenceStart :: rest, _, _ => do
      let (items, rest) ← readFlowItems fuel true rest
      return (.sequence items, rest)
    | .flowMappingStart :: rest, _, _ => do
      let (entries, rest) ← readFlowEntries fuel true rest
      return (.mapping entries, rest)
    | .blockSequenceStart :: rest, true, _ => do
      let (items, rest) ← readItems fuel rest
      return (.sequence items, rest)
    | .blockMappingStart :: rest, true, _ => do
      let (entries, rest) ← readEntries fuel rest
      return (.mapping entries, rest)
    | _, _, _ => .error .malformed

/-- Reads the items of a block sequence. -/
def readItems : Nat → List Token → Except Fault (List Node × List Token)
  | 0, _ => .error .malformed
  | fuel + 1, tokens => do
    match tokens with
    | .blockEntry :: rest =>
      let (item, rest) ← match rest.head? with
        | some .blockEntry | some .blockEnd => pure (Node.missing, rest)
        | _ => readNode fuel true false rest
      let (items, rest) ← readItems fuel rest
      return (item :: items, rest)
    | .blockEnd :: rest => return ([], rest)
    | _ => throw .malformed

/-- Reads the items of a sequence that is not indented. -/
def readIndentless : Nat → List Token → Except Fault (List Node × List Token)
  | 0, _ => .error .malformed
  | fuel + 1, tokens => do
    match tokens with
    | .blockEntry :: rest =>
      let (item, rest) ←
        if rest.head? = some .blockEntry || endsBlockNode rest.head? then pure (Node.missing, rest)
        else readNode fuel true false rest
      let (items, rest) ← readIndentless fuel rest
      return (item :: items, rest)
    | _ => return ([], tokens)

/-- Reads the entries of a block mapping. -/
def readEntries : Nat → List Token → Except Fault (List (Node × Node) × List Token)
  | 0, _ => .error .malformed
  | fuel + 1, tokens => do
    let node (rest : List Token) : Except Fault (Node × List Token) :=
      if endsBlockNode rest.head? then .ok (.missing, rest) else readNode fuel true true rest
    match tokens with
    | .key :: rest =>
      let (key, rest) ← node rest
      let (value, rest) ← match rest with
        | .value :: rest => node rest
        | _ => pure (.missing, rest)
      let (entries, rest) ← readEntries fuel rest
      return ((key, value) :: entries, rest)
    | .blockEnd :: rest => return ([], rest)
    | _ => throw .malformed

/-- Reads a key and its value in brackets, after the sign of the key. -/
def readFlowPair : Nat → List Token → Except Fault ((Node × Node) × List Token)
  | 0, _ => .error .malformed
  | fuel + 1, tokens => do
    let isMissing (t : Option Token) : Bool := endsFlowNode t || t = some .flowSequenceEnd
    let (key, rest) ←
      if tokens.head? = some .value || isMissing tokens.head? then pure (Node.missing, tokens)
      else readNode fuel false false tokens
    match rest with
    | .value :: rest =>
      if isMissing rest.head? then return ((key, .missing), rest)
      else
        let (value, rest) ← readNode fuel false false rest
        return ((key, value), rest)
    | _ => return ((key, .missing), rest)

/-- Reads the items of a sequence in brackets; a pair among them is a mapping of its own. -/
def readFlowItems : Nat → Bool → List Token → Except Fault (List Node × List Token)
  | 0, _, _ => .error .malformed
  | fuel + 1, isFirst, tokens => do
    match tokens, isFirst with
    | .flowSequenceEnd :: rest, _ => return ([], rest)
    | _, _ =>
      let tokens ← match tokens, isFirst with
        | _, true => pure tokens
        | .flowEntry :: rest, false => pure rest
        | _, false => throw .malformed
      match tokens with
      | .flowSequenceEnd :: rest => return ([], rest)
      | .key :: rest =>
        let (pair, rest) ← readFlowPair fuel rest
        let (items, rest) ← readFlowItems fuel false rest
        return (.mapping [pair] :: items, rest)
      | _ =>
        let (item, rest) ← readNode fuel false false tokens
        let (items, rest) ← readFlowItems fuel false rest
        return (item :: items, rest)

/-- Reads the entries of a mapping in brackets. -/
def readFlowEntries : Nat → Bool → List Token → Except Fault (List (Node × Node) × List Token)
  | 0, _, _ => .error .malformed
  | fuel + 1, isFirst, tokens => do
    match tokens, isFirst with
    | .flowMappingEnd :: rest, _ => return ([], rest)
    | _, _ =>
      let tokens ← match tokens, isFirst with
        | _, true => pure tokens
        | .flowEntry :: rest, false => pure rest
        | _, false => throw .malformed
      match tokens with
      | .flowMappingEnd :: rest => return ([], rest)
      | .key :: rest =>
        let (pair, rest) ← readFlowPair fuel rest
        let (entries, rest) ← readFlowEntries fuel false rest
        return (pair :: entries, rest)
      | _ =>
        let (key, rest) ← readNode fuel false false tokens
        let (entries, rest) ← readFlowEntries fuel false rest
        return ((key, .missing) :: entries, rest)

end

/-- Drops the markers that end documents. -/
def dropEnds : List Token → List Token
  | .documentEnd :: rest => dropEnds rest
  | tokens => tokens

/-- The node of the only document of a text; it is missing if there is none. -/
def compose (tokens : List Token) : Except Fault Node := do
  let fuel := 4 * tokens.length + 8
  let content (tokens : List Token) : Except Fault (Node × List Token) :=
    match tokens.head? with
    | none | some .documentStart | some .documentEnd => .ok (.missing, tokens)
    | _ => readNode fuel true false tokens
  let (node, rest) ← match tokens with
    | [] => pure (.missing, [])
    | .documentStart :: rest => content rest
    | _ => readNode fuel true false tokens
  if (dropEnds rest).isEmpty then return node else throw .malformed

/-! ## Construction -/

/-- The value of a plain scalar. -/
def plainValue (text : String) : Except Fault Value :=
  match resolve text with
  | .ok v => .ok v
  | .error .noValue => .error .malformed
  | .error .badNumber => .error .badNumber

/-- Whether a node is the key that takes in other mappings. -/
def Node.isMerge : Node → Bool
  | .plain text => text == mergeSign
  | _ => false

mutual

/-- The value of a node. -/
def construct : Nat → Node → Except Fault Value
  | 0, _ => .error .malformed
  | fuel + 1, node => do
    match node with
    | .plain text => plainValue text
    | .quoted codes => return .ofCodes codes
    | .sequence items => return .list (← items.mapM (construct fuel))
    | .mapping entries => return .ofPairs (← pairsOf fuel entries)

/-- The entries of a mapping, those taken from others first. Collections are no keys. -/
def pairsOf : Nat → List (Node × Node) → Except Fault (List (Value × Value))
  | 0, _ => .error .malformed
  | fuel + 1, entries => do
    let inner (node : Node) : Except Fault (List (Value × Value)) :=
      match node with
      | .mapping entries => pairsOf fuel entries
      | _ => .error .malformed
    let (merges, others) := entries.partition fun (key, _) => key.isMerge
    let taken ← merges.mapM fun (_, node) =>
      match node with
      | .sequence items => do
        let parts ← items.mapM inner
        return parts.reverse.flatten
      | _ => inner node
    let own ← others.mapM fun (key, value) => do
      let key ← match key with
        | .plain text => if text == defaultSign then pure (.text text) else plainValue text
        | _ => construct fuel key
      if !key.isKey then throw .malformed
      return (key, ← construct fuel value)
    return taken.flatten ++ own

end

/-- The fault of a character's number, if it is none. -/
def codeFault? (n : Nat) : Option Fault :=
  if n < 0x110000 then none else if n < 0x80000000 then some .badNumber else some .hugeCode

/-- The fault of a token whose escapes spell no characters. -/
def Token.fault? : Token → Option Fault
  | .quoted codes => codes.findSome? codeFault?
  | _ => none

/-- The value of the only document of a text; null if there is none. -/
def parse (text : String) : Except Fault Value := do
  match tokens? text with
  | none => throw .malformed
  | some tokens =>
    match tokens.findSome? Token.fault? with
    | some fault => throw fault
    | none =>
      let node ← compose tokens
      construct (2 * tokens.length + 8) node

end InputScript.Yaml
