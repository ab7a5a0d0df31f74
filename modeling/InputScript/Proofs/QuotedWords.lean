import InputScript.Proofs.ScanAgreement
import InputScript.Proofs.Validation

/-!
# Words in quotes

A word of any characters can be written down in single quotes, which keep all of them but their own
mark.  A single quote in the word is written between double quotes instead, with the single quotes
closed before it and opened again behind it, so that one word is made of several pieces.

Written in this way and joined by spaces, words pass the scan for refused characters, whatever they
hold, and are split into themselves.

## Main results

* `check_enquote`, `takeWord_enquote` — how the two scans pass a word in quotes.
* `enquoted_words_come_back` — a line of words in quotes is split into these words.
-/

namespace InputScript.Word

/-! ## Quoting -/

/-- A character inside of single quotes; they are left for a single quote. -/
def enquoteChar (c : Char) : List Char :=
  if c = '\'' then ['\'', '"', '\'', '"', '\''] else [c]

/-- A word in single quotes. -/
def enquote (word : String) : String :=
  "'" ++ String.ofList (word.toList.flatMap enquoteChar) ++ "'"

/-- Words in single quotes, with a space between each two. -/
def enquoteAll (words : List String) : String := " ".intercalate (words.map enquote)

theorem toList_enquote (word : String) :
    (enquote word).toList = '\'' :: (word.toList.flatMap enquoteChar ++ ['\'']) := by
  simp [enquote]

@[simp] theorem enquoteAll_nil : enquoteAll [] = "" := String.intercalate_nil

@[simp] theorem enquoteAll_singleton (word : String) : enquoteAll [word] = enquote word :=
  String.intercalate_singleton

theorem toList_enquoteAll_cons_cons (word next : String) (words : List String) :
    (enquoteAll (word :: next :: words)).toList =
      (enquote word).toList ++ ' ' :: (enquoteAll (next :: words)).toList := by
  rw [enquoteAll, List.map_cons, List.map_cons, String.intercalate_cons_cons]
  simp [enquoteAll]

/-! ## The scan for refused characters -/

/-- The scan inside of single quotes. -/
def inSingle : Scan := { quote := .single, wordStart := false }

theorem check_enquoteChar (c : Char) (seen rest : List Char) :
    check inSingle seen (enquoteChar c ++ rest) =
      check inSingle ((enquoteChar c).reverse ++ seen) rest := by
  by_cases hc : c = '\''
  · subst hc
    cases rest <;> rfl
  · have hstep : inSingle.step c = .ok inSingle := by simp [Scan.step, inSingle, hc]
    have hescape : inSingle.escapes c = false := by simp [Scan.escapes, inSingle]
    have hcomment : inSingle.startsComment c = false := by simp [Scan.startsComment, inSingle]
    have hopen : ∀ d ∈ rest.head?, inSingle.substitution? c d = none := by
      intro d _
      simp [Scan.substitution?, inSingle]
    simp only [enquoteChar, hc, if_false, List.singleton_append, List.reverse_singleton]
    exact check_cons hescape hopen hcomment hstep

theorem check_enquoteChars (cs seen rest : List Char) :
    check inSingle seen (cs.flatMap enquoteChar ++ rest) =
      check inSingle ((cs.flatMap enquoteChar).reverse ++ seen) rest := by
  induction cs generalizing seen with
  | nil => rfl
  | cons c cs ih =>
      rw [List.flatMap_cons, List.append_assoc, check_enquoteChar, ih]
      simp

/-- The scan passes a word in quotes. -/
theorem check_enquote (word : String) (wordStart : Bool) (seen rest : List Char) :
    check (outside wordStart) seen ((enquote word).toList ++ rest) =
      check (outside false) ((enquote word).toList.reverse ++ seen) rest := by
  have hopens : ∀ text : List Char,
      check (outside wordStart) seen ('\'' :: text) = check inSingle ('\'' :: seen) text :=
    fun text => check_cons rfl (fun _ _ => rfl) (by simp [Scan.startsComment]) rfl
  have hcloses : ∀ seen : List Char,
      check inSingle seen ('\'' :: rest) = check (outside false) ('\'' :: seen) rest :=
    fun seen => check_cons rfl (fun _ _ => rfl) rfl rfl
  rw [toList_enquote, List.cons_append, hopens, List.append_assoc, check_enquoteChars,
    List.singleton_append, hcloses]
  simp

theorem check_enquoteAll (words : List String) (wordStart : Bool) (seen : List Char) :
    check (outside wordStart) seen (enquoteAll words).toList = .ok none := by
  induction words generalizing wordStart seen with
  | nil => rfl
  | cons word words ih =>
      cases words with
      | nil =>
          rw [enquoteAll_singleton, ← List.append_nil (enquote word).toList, check_enquote]
          rfl
      | cons next words =>
          have hspace : ∀ seen text : List Char,
              check (outside false) seen (' ' :: text) = check (outside true) (' ' :: seen) text :=
            fun seen text => check_cons rfl (fun _ _ => rfl) rfl rfl
          rw [toList_enquoteAll_cons_cons, check_enquote, hspace, ih]

/-- A line of words in quotes is its own command. -/
theorem command_enquoteAll (words : List String) :
    command (enquoteAll words) = .ok (enquoteAll words) := by
  have hcheck := check_enquoteAll words true []
  unfold command
  rw [show ({} : Scan) = outside true from rfl, hcheck]

/-! ## The splitter -/

theorem takeWord_enquoteChar (c : Char) (word rest : List Char) :
    takeWord .single word (enquoteChar c ++ rest) = takeWord .single (c :: word) rest := by
  by_cases hc : c = '\''
  · subst hc
    rfl
  · simp [enquoteChar, takeWord, hc]

theorem takeWord_enquoteChars (cs word rest : List Char) :
    takeWord .single word (cs.flatMap enquoteChar ++ rest) =
      takeWord .single (cs.reverse ++ word) rest := by
  induction cs generalizing word with
  | nil => rfl
  | cons c cs ih =>
      rw [List.flatMap_cons, List.append_assoc, takeWord_enquoteChar, ih]
      simp

/-- The splitter takes a word out of its quotes. -/
theorem takeWord_enquote (word : String) (rest : List Char) :
    takeWord .plain [] ((enquote word).toList ++ rest) =
      takeWord .plain word.toList.reverse rest := by
  have hopens : ∀ text : List Char,
      takeWord .plain [] ('\'' :: text) = takeWord .single [] text := fun _ => rfl
  have hcloses : ∀ chars : List Char,
      takeWord .single chars ('\'' :: rest) = takeWord .plain chars rest := fun _ => rfl
  rw [toList_enquote, List.cons_append, hopens, List.append_assoc, takeWord_enquoteChars,
    List.singleton_append, hcloses, List.append_nil]

theorem firstToken_enquote (word : String) (rest : List Char) :
    firstToken ((enquote word).toList ++ rest) =
      (takeWord .plain word.toList.reverse rest).map fun r => some (String.ofList r.1, r.2) := by
  have hstart : ((enquote word).toList ++ rest).dropWhile isSeparator =
      (enquote word).toList ++ rest := by
    rw [toList_enquote]
    rfl
  rw [firstToken_of_start hstart (by simp [toList_enquote]), takeWord_enquote]

/-- A line of words in quotes is split into the words. -/
theorem tokens_enquoteAll (words : List String) :
    tokens (enquoteAll words).toList = .ok words := by
  induction words with
  | nil => exact tokens_separators (by simp)
  | cons word words ih =>
      cases words with
      | nil =>
          have hfirst := firstToken_enquote word []
          rw [List.append_nil, takeWord, List.reverse_reverse] at hfirst
          simp only [Except.map, String.ofList_toList] at hfirst
          rw [enquoteAll_singleton]
          exact tokens_cons hfirst ih
      | cons next words =>
          have hfirst := firstToken_enquote word (' ' :: (enquoteAll (next :: words)).toList)
          have hspace : isSeparator ' ' = true := rfl
          rw [takeWord, hspace, if_pos rfl, List.reverse_reverse] at hfirst
          simp only [Except.map, String.ofList_toList] at hfirst
          rw [toList_enquoteAll_cons_cons]
          exact tokens_cons hfirst ih

/-! ## Lines of words in quotes -/

/-- The quotes bring no expansion with them. -/
theorem needsShell_enquote (word : String) : needsShell (enquote word) = needsShell word := by
  have hchar : ∀ c, (enquoteChar c).any isExpansion = isExpansion c := by
    intro c
    by_cases hc : c = '\''
    · subst hc
      rfl
    · simp [enquoteChar, hc]
  have hmark : isExpansion '\'' = false := rfl
  rw [needsShell, toList_enquote, List.any_cons, List.any_append, List.any_flatMap]
  simp [hchar, hmark, needsShell]

theorem needsShell_enquoteAll {words : List String} (h : ∀ word ∈ words, needsShell word = false) :
    needsShell (enquoteAll words) = false := by
  induction words with
  | nil => rfl
  | cons word words ih =>
      obtain ⟨hword, h⟩ := List.forall_mem_cons.mp h
      rw [← needsShell_enquote] at hword
      cases words with
      | nil => rwa [enquoteAll_singleton]
      | cons next words =>
          have hrest := ih h
          have hspace : isExpansion ' ' = false := rfl
          unfold needsShell at hword hrest ⊢
          rw [toList_enquoteAll_cons_cons]
          simp [hword, hrest, hspace]

variable {σ ω : Type} [Host σ]

/-- Words without expansions that are written in quotes and joined by spaces are the words of that
line. -/
theorem enquoted_words_come_back {words : List String}
    (hplain : ∀ word ∈ words, needsShell word = false) (shell : String) (line : Option Nat)
    (s : Session σ ω) :
    (Expansion.split shell (enquoteAll words) line).exec s = (.ok words, s) :=
  Expansion.exec_split (command_enquoteAll words) (needsShell_enquoteAll hplain)
    (tokens_enquoteAll words) line s

/-- An empty word, a word of pieces, and words with all that is refused outside of quotes. -/
theorem enquoted_words_come_back_refused :
    (∀ word ∈ ["", "it's", "# \t\n", "a\\|&;<>(b\"", "'"], needsShell word = false) ∧
      (Expansion.split "/bin/sh" (enquoteAll ["", "it's", "# \t\n", "a\\|&;<>(b\"", "'"]) none).exec
        Machine.idle = (.ok ["", "it's", "# \t\n", "a\\|&;<>(b\"", "'"], Machine.idle) := by
  have hplain : ∀ word ∈ ["", "it's", "# \t\n", "a\\|&;<>(b\"", "'"], needsShell word = false := by
    decide
  exact ⟨hplain, enquoted_words_come_back hplain "/bin/sh" none Machine.idle⟩

end InputScript.Word
