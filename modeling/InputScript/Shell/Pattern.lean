import InputScript.Files

/-!
# Patterns

A pattern is a word whose unquoted stars, question marks and brackets stand for many strings. It is
compiled to a list of atoms, matched octet by octet. Against the file tree a pattern with slashes is
matched one component at a time; a name that starts with a dot is matched only by a pattern that does.
-/

namespace InputScript.Shell

/-- An octet of a word, and whether it was quoted. -/
structure Glyph where
  char : Char
  quoted : Bool
deriving DecidableEq, Repr

/-- Glyphs without their quoting. -/
def plain (glyphs : List Glyph) : Octets := glyphs.map (·.char)

namespace Pattern

/-- A member of a bracket. -/
inductive Member
  | range (low high : Char)
  | class (name : Octets)
deriving DecidableEq, Repr

/-- What a part of a pattern matches. -/
inductive Atom
  | one (c : Char)
  | any
  | many
  | bracket (negated : Bool) (members : List Member)
deriving DecidableEq, Repr

/-- Whether an octet belongs to a named class. -/
def inClass (name : String) (c : Char) : Bool :=
  match name with
  | "alpha" => c.isAlpha
  | "digit" => c.isDigit
  | "alnum" => c.isAlphanum
  | "upper" => c.isUpper
  | "lower" => c.isLower
  | "space" => c == ' ' || (9 ≤ c.toNat && c.toNat ≤ 13)
  | "blank" => c == ' ' || c == '\t'
  | "punct" => 33 ≤ c.toNat && c.toNat ≤ 126 && !c.isAlphanum
  | "print" => 32 ≤ c.toNat && c.toNat ≤ 126
  | "graph" => 33 ≤ c.toNat && c.toNat ≤ 126
  | "cntrl" => c.toNat < 32 || c.toNat == 127
  | "xdigit" => c.isDigit || ('a' ≤ c && c ≤ 'f') || ('A' ≤ c && c ≤ 'F')
  | _ => false

def Member.contains (c : Char) : Member → Bool
  | .range low high => low ≤ c && c ≤ high
  | .class name => inClass (String.ofList name) c

def Atom.accepts (c : Char) : Atom → Bool
  | .one d => c == d
  | .any | .many => true
  | .bracket negated members => members.any (·.contains c) != negated

/-- The name of a class that follows an opening bracket and colon, and what comes after it. -/
def className? (glyphs : List Glyph) : Option (Octets × List Glyph) :=
  let name := glyphs.takeWhile fun g => !g.quoted && g.char.isLower
  match glyphs.drop name.length with
  | ⟨':', false⟩ :: ⟨']', false⟩ :: rest => if name.isEmpty then none else some (plain name, rest)
  | _ => none

/-- The members of a bracket up to its end, which is not the first thing in it; the bound is at least
the length of the pattern. -/
def membersWithin : Nat → Bool → List Glyph → Option (List Member × List Glyph)
  | 0, _, _ => none
  | _ + 1, _, [] => none
  | bound + 1, isFirst, g :: rest =>
    if g = ⟨']', false⟩ && !isFirst then some ([], rest)
    else
      let named :=
        if g = ⟨'[', false⟩ && rest.head? == some ⟨':', false⟩ then className? (rest.drop 1) else none
      let (member, tail) : Member × List Glyph :=
        match named, rest with
        | some (name, tail), _ => (.class name, tail)
        | none, ⟨'-', false⟩ :: high :: tail =>
          if high = ⟨']', false⟩ then (.range g.char g.char, rest)
          else (.range g.char high.char, tail)
        | none, _ => (.range g.char g.char, rest)
      (membersWithin bound false tail).map fun (members, after) => (member :: members, after)

/-- A bracket after its opening sign. -/
def bracket? (glyphs : List Glyph) : Option (Atom × List Glyph) :=
  match glyphs with
  | ⟨'!', false⟩ :: rest => (membersWithin rest.length true rest).map fun (ms, tail) => (.bracket true ms, tail)
  | _ => (membersWithin glyphs.length true glyphs).map fun (ms, tail) => (.bracket false ms, tail)

/-- Compiles a pattern; the bound is at least its length. -/
def compileWithin : Nat → List Glyph → List Atom
  | 0, _ => []
  | _ + 1, [] => []
  | bound + 1, g :: rest =>
    if g.quoted then .one g.char :: compileWithin bound rest
    else if g.char = '*' then .many :: compileWithin bound rest
    else if g.char = '?' then .any :: compileWithin bound rest
    else if g.char = '[' then
      match bracket? rest with
      | some (atom, tail) => atom :: compileWithin bound tail
      | none => .one '[' :: compileWithin bound rest
    else .one g.char :: compileWithin bound rest

def compile (glyphs : List Glyph) : List Atom := compileWithin glyphs.length glyphs

/-- Whether a string is matched as a whole. -/
def matchesAll : List Atom → Octets → Bool
  | [], s => s.isEmpty
  | .many :: atoms, [] => matchesAll atoms []
  | .many :: atoms, c :: s => matchesAll atoms (c :: s) || matchesAll (.many :: atoms) s
  | _ :: _, [] => false
  | atom :: atoms, c :: s => atom.accepts c && matchesAll atoms s
termination_by atoms s => atoms.length + s.length

/-- Whether a word has a sign that may stand for several strings. -/
def isActive (glyphs : List Glyph) : Bool :=
  glyphs.any fun g => !g.quoted && (g.char == '*' || g.char == '?' || g.char == '[')

/-- Removes the shortest or longest matching start of a string. -/
def trimStart (atoms : List Atom) (longest : Bool) (s : Octets) : Octets :=
  let cuts := List.range (s.length + 1)
  let cuts := if longest then cuts.reverse else cuts
  match cuts.find? fun n => matchesAll atoms (s.take n) with
  | some n => s.drop n
  | none => s

/-- Removes the shortest or longest matching end of a string. -/
def trimEnd (atoms : List Atom) (longest : Bool) (s : Octets) : Octets :=
  let cuts := List.range (s.length + 1)
  let cuts := if longest then cuts else cuts.reverse
  match cuts.find? fun n => matchesAll atoms (s.drop n) with
  | some n => s.take n
  | none => s

/-- The components of a word between slashes. -/
def components : List Glyph → List (List Glyph)
  | [] => [[]]
  | g :: rest =>
    if g.char = '/' then [] :: components rest
    else
      match components rest with
      | piece :: more => (g :: piece) :: more
      | [] => [[g]]

/-- Whether a pattern may match a name: a leading dot has to be written out. -/
def admits (glyphs : List Glyph) (name : Octets) : Bool :=
  (name.head? != some '.' || (plain glyphs).head? == some '.')
    && matchesAll (compile glyphs) name

/-- The names a pattern is matched against in a directory: its files, itself and its parent. -/
def namesIn (files : Files) (path : Octets) : List Octets :=
  match files.get path with
  | .ok (.directory _) => ['.'] :: ['.', '.'] :: files.list path
  | _ => []

/-- The paths that the remaining components match below a base. -/
def pathsBelow (files : Files) (base : Octets) : List (List Glyph) → List Octets
  | [] => [base]
  | component :: rest =>
    let names :=
      if isActive component then
        (namesIn files (if base.isEmpty then ['.'] else base)).filter (admits component)
      else [plain component]
    names.flatMap fun name =>
      if rest.isEmpty then
        if isActive component || (files.get (base ++ name)).isOk then [base ++ name] else []
      else pathsBelow files (base ++ name ++ ['/']) rest

/-- The paths a word stands for: itself if it is no pattern or matches nothing. -/
def paths (files : Files) (glyphs : List Glyph) : List Octets :=
  if isActive glyphs then
    match pathsBelow files [] (components glyphs) with
    | [] => [plain glyphs]
    | found => found.mergeSort Octets.le
  else [plain glyphs]

end Pattern

end InputScript.Shell
