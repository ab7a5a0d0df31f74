/-!
# Words of a line

The in-process splitter: words are separated by spaces, tabs and line ends; single quotes keep
everything, double quotes keep everything but let a backslash escape a double quote or a backslash,
and outside quotes a backslash keeps the next character. Adjacent pieces join, and a pair of quotes
makes a word even if it is empty.

`takeWord` reads one word and returns what follows it, which is shorter than the input; `tokens`
repeats it.
-/

namespace InputScript.Word

/-- The characters that separate words. -/
def isSeparator (c : Char) : Bool :=
  c == ' ' || c == '\t' || c == '\r' || c == '\n'

/-- Why a line cannot be split. -/
inductive TokenFault
  | openQuote
  | nothingEscaped
deriving DecidableEq, Repr

def TokenFault.message : TokenFault → String
  | .openQuote => "No closing quotation"
  | .nothingEscaped => "No escaped character"

/-- Where the splitter is inside a word. -/
inductive Mode
  | plain
  | single
  | double
  | escaped
  | doubleEscaped
deriving DecidableEq, Repr

/-- Reads to the end of the current word. `word` holds its characters so far, last first. The rest
starts after the separator that ended the word. -/
def takeWord (mode : Mode) (word : List Char) :
    List Char → Except TokenFault (List Char × List Char)
  | [] =>
    match mode with
    | .plain => .ok (word.reverse, [])
    | .single | .double => .error .openQuote
    | .escaped | .doubleEscaped => .error .nothingEscaped
  | c :: rest =>
    match mode with
    | .plain =>
      if isSeparator c then .ok (word.reverse, rest)
      else if c == '\'' then takeWord .single word rest
      else if c == '"' then takeWord .double word rest
      else if c == '\\' then takeWord .escaped word rest
      else takeWord .plain (c :: word) rest
    | .single =>
      if c == '\'' then takeWord .plain word rest else takeWord .single (c :: word) rest
    | .double =>
      if c == '"' then takeWord .plain word rest
      else if c == '\\' then takeWord .doubleEscaped word rest
      else takeWord .double (c :: word) rest
    | .escaped => takeWord .plain (c :: word) rest
    | .doubleEscaped =>
      if c == '"' || c == '\\' then takeWord .double (c :: word) rest
      else takeWord .double (c :: '\\' :: word) rest

theorem takeWord_length {mode : Mode} {word cs w rest : List Char}
    (h : takeWord mode word cs = .ok (w, rest)) : rest.length ≤ cs.length := by
  induction cs generalizing mode word with
  | nil => cases mode <;> simp_all [takeWord]
  | cons c cs ih =>
    cases mode <;> simp only [takeWord] at h <;> repeat' split at h
    all_goals first
      | (simp only [Except.ok.injEq, Prod.mk.injEq] at h; simp [← h.2])
      | exact Nat.le_succ_of_le (ih h)

/-- The first word of a line, and what follows it; `none` if there is no word. -/
def firstToken (cs : List Char) : Except TokenFault (Option (String × List Char)) :=
  match cs.dropWhile isSeparator with
  | [] => .ok none
  | start => do
    let (word, rest) ← takeWord .plain [] start
    return some (String.ofList word, rest)

theorem takeWord_shorter {c : Char} {cs w rest : List Char} (hc : isSeparator c = false)
    (h : takeWord .plain [] (c :: cs) = .ok (w, rest)) : rest.length < (c :: cs).length := by
  simp only [takeWord, hc, Bool.false_eq_true, ↓reduceIte] at h
  repeat' split at h
  all_goals
    have := takeWord_length h
    simp; omega

theorem firstToken_shorter {cs rest : List Char} {w : String}
    (h : firstToken cs = .ok (some (w, rest))) : rest.length < cs.length := by
  unfold firstToken at h
  split at h
  · simp at h
  · next hstart =>
    cases hword : takeWord .plain [] (cs.dropWhile isSeparator) with
    | error e => rw [hword] at h; simp [bind, Except.bind] at h
    | ok pair =>
      obtain ⟨word, rest'⟩ := pair
      rw [hword] at h
      simp only [bind, Except.bind, pure, Except.pure, Except.ok.injEq, Option.some.injEq,
        Prod.mk.injEq] at h
      obtain ⟨_, rfl⟩ := h
      cases hcs : cs.dropWhile isSeparator with
      | nil => exact absurd hcs hstart
      | cons c tail =>
        have hhead := List.head?_dropWhile_not isSeparator cs
        have hle := (List.dropWhile_suffix isSeparator (l := cs)).length_le
        rw [hcs] at hword hhead hle
        have hshort := takeWord_shorter hhead hword
        omega

/-- All words of a line. -/
def tokens (cs : List Char) : Except TokenFault (List String) :=
  match h : firstToken cs with
  | .error fault => .error fault
  | .ok none => .ok []
  | .ok (some (word, rest)) =>
    have : rest.length < cs.length := firstToken_shorter h
    match tokens rest with
    | .error fault => .error fault
    | .ok words => .ok (word :: words)
termination_by cs.length

end InputScript.Word
