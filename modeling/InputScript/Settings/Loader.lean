import InputScript.Host
import InputScript.Report
import InputScript.Settings.Json
import InputScript.Settings.Validation
import InputScript.Settings.Yaml.Document
import InputScript.Text.Utf8

/-!
# Loading settings

Settings come from a file, if one is named by the caller or by the environment, and then from the
environment, variable by variable; the result is validated. The device may also be identified by a
text of up to three numbers between colons.
-/

namespace InputScript

/-! ## Device identifiers -/

/-- Why a text identifies no device. -/
inductive IdentifierFault
  | malformed
  | outOfRange
deriving DecidableEq, Repr

def IdentifierFault.message (id : String) : IdentifierFault → String
  | .malformed => "Invalid device ID: " ++ id
  | .outOfRange => "Device ID component out of range: " ++ id

namespace Profile

/-- Reads a number of an identifier. -/
def identifierNumber (part : String) : Except IdentifierFault Nat :=
  match Number.readInt? part with
  | none => .error .malformed
  | some n =>
    if 0 ≤ n && n ≤ (Validation.maxIdentifier : Int) then .ok n.toNat else .error .outOfRange

/-- Sets vendor, product and version from an identifier; what it leaves out stays. -/
def withIdentifier (p : Profile) (id : String) : Except IdentifierFault Profile := do
  let parts := (id.toList.splitOn ':').map String.ofList
  if 3 < parts.length then throw .malformed
  match ← parts.mapM identifierNumber with
  | [vendor] => return { p with vendor }
  | [vendor, product] => return { p with vendor, product }
  | [vendor, product, version] => return { p with vendor, product, version }
  | _ => throw .malformed

/-- A number of an identifier: four hexadecimal digits in upper case. -/
def identifierPart (n : Nat) : String := "0x" ++ Text.hexadecimal 4 n

/-- The identifier of a device. -/
def identifier (p : Profile) : String :=
  identifierPart p.vendor ++ ":" ++ identifierPart p.product ++ ":" ++ identifierPart p.version

end Profile

/-! ## Faults -/

/-- Why settings are refused. -/
inductive LoadFault
  | notFound (path : String)
  | unsupported (ending path : String)
  | invalidYaml (path : String)
  | invalidJson (path : String)
  | notMapping (path : String)
  | invalid (findings : List Finding) (path : Option String)
  /-- A key of the file is not a text. -/
  | badKey (path : Option String)
  /-- The settings are refused, but the complaint cannot be written. -/
  | unwritable (path : Option String)
  | identifier (fault : IdentifierFault) (id : String)
deriving DecidableEq, Repr

/-- Failures of loading that are not faults of the settings. -/
inductive LoadCrash
  | undecodable
  | isDirectory
  | inaccessible
  /-- A value of the wrong type where a mapping is overridden, or in its place. -/
  | wrongType
  /-- A value of the wrong shape where a mapping is overridden, or a number that is none. -/
  | wrongValue
  /-- A number that is too large for what it is to number. -/
  | tooLarge
deriving DecidableEq, Repr

namespace LoadFault

/-- The message of a fault, without the list of findings. -/
def message : LoadFault → String
  | .notFound path => "Config file not found: " ++ path
  | .unsupported ending _ => "Unsupported config format: " ++ ending
  | .invalidYaml _ => "Invalid YAML"
  | .invalidJson _ => "Invalid JSON"
  | .notMapping _ => "Config root must be a mapping"
  | .invalid _ _ | .badKey _ | .unwritable _ => "Invalid engine config"
  | .identifier fault id => fault.message id

/-- The file a fault is about. -/
def path? : LoadFault → Option String
  | .notFound path | .unsupported _ path | .invalidYaml path | .invalidJson path
  | .notMapping path => some path
  | .invalid _ path | .badKey path | .unwritable path => path
  | .identifier _ _ => none

def report (f : LoadFault) : Report :=
  Report.withDetails { kind := .config, message := f.message }
    [("config_path", .optText f.path?)]

end LoadFault

/-- What can go wrong while settings are loaded. -/
inductive LoadTrouble
  | fault (cause : LoadFault)
  | crash (crash : LoadCrash)
deriving DecidableEq, Repr

namespace Loader

/-! ## Paths -/

/-- What stands between the slashes of a path. -/
def components (path : String) : List String := (path.toList.splitOn '/').map String.ofList

/-- A path without empty components and dots. -/
def normalise (path : String) : String :=
  let leading := (path.toList.takeWhile (· == '/')).length
  let root := if leading = 0 then "" else if leading = 2 then "//" else "/"
  let parts := (components path).filter fun c => c != "" && c != "."
  let joined := root ++ String.intercalate "/" parts
  if joined.isEmpty then "." else joined

/-- The last component of a normal path. -/
def fileName (path : String) : String :=
  let name := ((components path).getLast?).getD ""
  if name == "." then "" else name

/-- The ending of a file name, from its last dot on. A dot at either end of the name starts none. -/
def ending (path : String) : String :=
  let cs := (fileName path).toList
  let tail := (cs.reverse.takeWhile (· != '.')).reverse
  if tail.isEmpty || cs.length ≤ tail.length + 1 then "" else String.ofList ('.' :: tail)

/-! ## Files -/

/-- Line ends made uniform. -/
def uniformLines : List Char → List Char
  | [] => []
  | '\r' :: '\n' :: rest => '\n' :: uniformLines rest
  | c :: rest => (if c = '\r' then '\n' else c) :: uniformLines rest

/-- What settings are loaded from. What becomes of a YAML text is left to its reader. -/
structure Sources where
  /-- The bytes of a file. -/
  readFile : String → Except Errno (List UInt8)
  /-- The value of a YAML document. -/
  readYaml : String → Except Yaml.Fault Value

/-- The text of a file. -/
def readText (src : Sources) (path : String) : Except LoadTrouble String :=
  if path.toList.contains '\x00' then .error (.fault (.notFound path))
  else
    match src.readFile path with
    | .error .noEntry | .error .notDirectory | .error .tooManyLinks =>
      .error (.fault (.notFound path))
    | .error .isDirectory => .error (.crash .isDirectory)
    | .error _ => .error (.crash .inaccessible)
    | .ok bytes =>
      match Text.decodeUtf8 bytes with
      | .error _ => .error (.crash .undecodable)
      | .ok cs => .ok (String.ofList (uniformLines cs))

/-- The value in a text whose format the file's ending tells. A YAML text without content is an empty
mapping. -/
def readValue (src : Sources) (path content : String) : Except LoadTrouble Value :=
  let format := ending path
  if format == ".yaml" || format == ".yml" then
    match src.readYaml content with
    | .ok v => .ok (if v.isTruthy then v else .mapping [])
    | .error .malformed => .error (.fault (.invalidYaml path))
    | .error .badNumber => .error (.crash .wrongValue)
    | .error .hugeCode => .error (.crash .tooLarge)
  else if format == ".json" then
    match Json.parse content with
    | .ok v => .ok v
    | .error .malformed => .error (.fault (.invalidJson path))
    | .error .tooLong => .error (.crash .wrongValue)
  else .error (.fault (.unsupported format path))

/-- The entries of a configuration file. -/
def readEntries (src : Sources) (path : String) : Except LoadTrouble (List (Value × Value)) := do
  let content ← readText src path
  match ← readValue src path content with
  | .mapping entries => return entries
  | _ => throw (.fault (.notMapping path))

/-! ## Overrides -/

/-- What a variable of the environment sets: a field of the device or of the engine, and how its text
is taken. -/
structure Override where
  name : String
  ofDevice : Bool
  field : String
  value : String → Value

/-- A text between commas as a list of its parts that are not blank. -/
def commaList (s : String) : Value :=
  .list (((s.splitOn ",").filter fun part => !(Text.trim part).isEmpty).map .text)

/-- Whether a text says yes. -/
def yes (s : String) : Value :=
  .bool (["1", "true", "yes", "on"].contains (Text.lower (Text.trim s)))

/-- The variables that override settings, in the order in which they apply. -/
def overrides : List Override :=
  [⟨"UDOSCRIPT_DEVICE", true, "path", .text⟩,
   ⟨"UDOSCRIPT_DEV_NAME", true, "name", .text⟩,
   ⟨"UDOSCRIPT_SETTLE_TIME", true, "settle_time", .text⟩,
   ⟨"UDOSCRIPT_QUIRKS", true, "quirks", commaList⟩,
   ⟨"UDOSCRIPT_KEY_DELAY", false, "key_delay", .text⟩,
   ⟨"UDOSCRIPT_DRY_RUN", false, "dry_run", yes⟩,
   ⟨"UDOSCRIPT_SHELL", false, "shell", .text⟩,
   ⟨"UDOSCRIPT_VERBOSITY", false, "verbosity", .text⟩,
   ⟨"LOG_FORMAT", false, "log_format", .text⟩]

/-- The pair that an item of a list stands for. -/
def pairOf : Value → Except LoadCrash (Value × Value)
  | .list [k, v] => if k.isKey then .ok (k, v) else .error .wrongType
  | .list _ => .error .wrongValue
  | .text s =>
    match s.toList with
    | [a, b] => .ok (.text (String.singleton a), .text (String.singleton b))
    | _ => .error .wrongValue
  | .unpaired [a, b] => .ok (.ofCodes [a], .ofCodes [b])
  | .unpaired _ => .error .wrongValue
  | .mapping [(a, _), (b, _)] => .ok (a, b)
  | .mapping _ => .error .wrongValue
  | _ => .error .wrongType

/-- A value as the entries of a mapping: nothing if it is empty, and a list as pairs. -/
def entriesOf (v : Value) : Except LoadCrash (List (Value × Value)) :=
  if !v.isTruthy then .ok []
  else
    match v with
    | .mapping entries => .ok entries
    | .list items => do
      let pairs ← items.mapM pairOf
      return pairs.foldl (fun entries (k, v) => Value.setEntry entries k v) []
    | .text _ | .unpaired _ => .error .wrongValue
    | _ => .error .wrongType

/-- Applies one override, unless its variable is missing or empty. -/
def applyOverride (env : Environment) (entries : List (Value × Value)) (o : Override) :
    Except LoadCrash (List (Value × Value)) :=
  match env.get? o.name with
  | none | some "" => .ok entries
  | some raw =>
    if o.ofDevice then do
      let nested ← entriesOf ((Value.field? entries "device").getD .null)
      let nested := Value.setEntry nested (.text o.field) (o.value raw)
      return Value.setEntry entries (.text "device") (.mapping nested)
    else .ok (Value.setEntry entries (.text o.field) (o.value raw))

/-- Applies all overrides. -/
def applyOverrides (env : Environment) (entries : List (Value × Value)) :
    Except LoadCrash (List (Value × Value)) :=
  overrides.foldlM (applyOverride env) entries

/-! ## Loading -/

/-- The fault of refused settings. -/
def refused (path : Option String) : Refusal → LoadFault
  | .findings all => .invalid all path
  | .unwritable => .unwritable path

/-- Loads settings. An empty path counts as none. -/
def load (src : Sources) (env : Environment) (path : Option String) :
    Except LoadTrouble Settings := do
  let path := (path <|> env.get? "UDOSCRIPT_CONFIG").filter (!·.isEmpty)
  let entries ← match path with
    | some path => readEntries src (normalise path)
    | none => pure []
  let entries ← (applyOverrides env entries).mapError .crash
  if !(entries.all fun (k, _) => k.isString) then throw (.fault (.badKey path))
  let settings ← (Validation.settings entries).mapError fun r => .fault (refused path r)
  match env.get? "UDOSCRIPT_DEV_ID" with
  | none | some "" => return settings
  | some id =>
    match settings.device.withIdentifier id with
    | .ok device => return { settings with device }
    | .error fault => throw (.fault (.identifier fault id))

/-- Loads settings from the files of a host. -/
def loadFrom {σ : Type} [Host σ] (host : σ) (env : Environment) (path : Option String) :
    Except LoadTrouble Settings :=
  load { readFile := (Host.readFile · host), readYaml := Yaml.parse } env path

end Loader

end InputScript
