import InputScript.Text.Blank
import InputScript.Word.Check
import InputScript.Word.Token

/-!
# Quotes and escapes

What a character of a line means depends on the quote that it stands in, and on a backslash before
it.  `Quoting` is that knowledge at one place of a text, and `Quoting.next` the rule by which it
changes: a quote ends at its own mark, a backslash escapes one character, and inside of single quotes
it does not.

Whoever reads a line follows this rule in states of its own.  The splitter has a mode for every
quoting, and takes an escape in two steps (`takeWord_cons`).

## Main results

* `Quoting.escaped_after` — what the last character of a text must be to escape the one behind it.
* `takeWord_ok`, `takeWord_error` — a word that is read is what a closed part of the text keeps, and
  what is wrong with one that is not read shows at the end of the text.
-/

namespace InputScript.Word

/-! ## The rule -/

/-- The quote behind a character that is not escaped. -/
def Quote.next (quote : Quote) (c : Char) : Quote :=
  match quote with
  | .none => if c == '\'' then .single else if c == '"' then .double else .none
  | .single => if c == '\'' then .none else .single
  | .double => if c == '"' then .none else .double

/-- How the next character of a text is read: in which quote, and whether it is escaped. -/
structure Quoting where
  quote : Quote := .none
  escaped : Bool := false
deriving DecidableEq, Repr

namespace Quoting

/-- How the character after this one is read. -/
def next (q : Quoting) (c : Char) : Quoting :=
  if q.escaped then { q with escaped := false }
  else if c == '\\' && q.quote != .single then { q with escaped := true }
  else { q with quote := q.quote.next c }

/-- How the first character behind a text is read. -/
def after (q : Quoting) (cs : List Char) : Quoting := cs.foldl next q

/-- What a character adds to the word that it stands in. -/
def kept (q : Quoting) (c : Char) : List Char :=
  match q with
  | ⟨.double, true⟩ => if c == '"' || c == '\\' then [c] else ['\\', c]
  | ⟨_, true⟩ => [c]
  | ⟨.none, false⟩ =>
    if isSeparator c || c == '\'' || c == '"' || c == '\\' then [] else [c]
  | ⟨.single, false⟩ => if c == '\'' then [] else [c]
  | ⟨.double, false⟩ => if c == '"' || c == '\\' then [] else [c]

/-- What is left of a text in its words, from the first to the last. -/
def content (q : Quoting) : List Char → List Char
  | [] => []
  | c :: cs => q.kept c ++ (q.next c).content cs

/-- What is wrong with a text that ends here. -/
def fault? (q : Quoting) : Option TokenFault :=
  if q.escaped then some .nothingEscaped
  else if q.quote = .none then none
  else some .openQuote

variable {q : Quoting} {c : Char}

@[simp] theorem after_nil : q.after [] = q := rfl

@[simp] theorem after_cons (cs : List Char) : q.after (c :: cs) = (q.next c).after cs := rfl

@[simp] theorem after_append (u v : List Char) : q.after (u ++ v) = (q.after u).after v :=
  List.foldl_append

@[simp] theorem content_nil : q.content [] = [] := rfl

@[simp] theorem content_cons (cs : List Char) :
    q.content (c :: cs) = q.kept c ++ (q.next c).content cs := rfl

theorem content_append (u v : List Char) :
    q.content (u ++ v) = q.content u ++ (q.after u).content v := by
  induction u generalizing q with
  | nil => rfl
  | cons c u ih => simp [ih]

theorem fault?_eq_none : q.fault? = none ↔ q = {} := by
  obtain ⟨quote, escaped⟩ := q
  cases quote <;> cases escaped <;> decide

/-- Outside of quotes a text can only miss a character to escape. -/
theorem fault?_of_quote {fault : TokenFault} (hq : q.quote = .none) :
    q.fault? = some fault ↔ fault = .nothingEscaped ∧ q.escaped = true := by
  obtain ⟨quote, escaped⟩ := q
  cases hq
  cases escaped <;> simp [fault?, eq_comm]

/-- Only a backslash escapes the character behind it, if it is not escaped itself and stands in no
single quotes. -/
theorem escaped_next :
    (q.next c).escaped = true ↔ q.escaped = false ∧ c = '\\' ∧ q.quote ≠ .single := by
  unfold next
  split
  · next hescaped => simp [hescaped]
  · next hescaped =>
      split
      · next hslash => simpa [hescaped] using hslash
      · next hslash => simpa [hescaped] using hslash

/-- A text leaves the next character escaped exactly if its last one is a backslash that is neither
escaped nor in single quotes. -/
theorem escaped_after {cs : List Char} :
    (after {} cs).escaped = true ↔
      ∃ u, cs = u ++ ['\\'] ∧ (after {} u).escaped = false ∧ (after {} u).quote ≠ .single := by
  constructor
  · intro h
    rcases List.eq_nil_or_concat cs with rfl | ⟨u, c, rfl⟩
    · cases h
    · rw [List.concat_eq_append, after_append, after_cons, after_nil] at h
      obtain ⟨hescaped, rfl, hquote⟩ := escaped_next.mp h
      exact ⟨u, List.concat_eq_append, hescaped, hquote⟩
  · rintro ⟨u, rfl, hescaped, hquote⟩
    rw [after_append, after_cons, after_nil]
    exact escaped_next.mpr ⟨hescaped, rfl, hquote⟩

/-! ### Blanks -/

theorem ne_of_isBlank (hc : Text.isBlank c = true) (d : Char) (hd : Text.isBlank d = false) :
    (c == d) = false := by
  refine beq_eq_false_iff_ne.mpr fun heq => ?_
  rw [heq, hd] at hc
  cases hc

/-- A blank ends an escape and changes nothing else. -/
theorem next_of_isBlank (hc : Text.isBlank c = true) : q.next c = { q with escaped := false } := by
  have hother := ne_of_isBlank hc
  have hquote : q.quote.next c = q.quote := by
    cases hq : q.quote <;> simp [Quote.next, hother '\'' rfl, hother '"' rfl]
  simp only [next, hother '\\' rfl, hquote, Bool.false_and, Bool.false_eq_true, if_false]
  split
  · rfl
  · next hescaped => rw [Bool.eq_false_iff.mpr hescaped]

theorem quote_after_blanks {blanks : List Char} (h : ∀ c ∈ blanks, Text.isBlank c = true) :
    (q.after blanks).quote = q.quote := by
  induction blanks generalizing q with
  | nil => rfl
  | cons c blanks ih =>
      obtain ⟨hc, h⟩ := List.forall_mem_cons.mp h
      rw [after_cons, next_of_isBlank hc, ih h]

theorem isBlank_of_isSeparator (hc : isSeparator c = true) : Text.isBlank c = true := by
  simp only [isSeparator, Bool.or_eq_true, beq_iff_eq] at hc
  rcases hc with ((rfl | rfl) | rfl) | rfl <;> rfl

/-- Separators leave a text without quotes as it is. -/
theorem after_separators {cs : List Char} (h : ∀ c ∈ cs, isSeparator c = true) :
    after {} cs = {} := by
  induction cs with
  | nil => rfl
  | cons c cs ih =>
      obtain ⟨hc, h⟩ := List.forall_mem_cons.mp h
      rw [after_cons, next_of_isBlank (isBlank_of_isSeparator hc)]
      exact ih h

/-- Of blanks outside of quotes those are left that do not separate words. -/
theorem content_blanks {blanks : List Char} (h : ∀ c ∈ blanks, Text.isBlank c = true) :
    content {} blanks = blanks.filter (fun c => !isSeparator c) := by
  induction blanks with
  | nil => rfl
  | cons c blanks ih =>
      obtain ⟨hc, h⟩ := List.forall_mem_cons.mp h
      rw [content_cons, next_of_isBlank hc, List.filter_cons]
      have hkept : kept {} c = if isSeparator c then [] else [c] := by
        have hother := ne_of_isBlank hc
        simp [kept, hother '\\' rfl, hother '\'' rfl, hother '"' rfl]
      rw [hkept, ← ih h]
      cases isSeparator c <;> rfl

theorem content_separators {cs : List Char} (h : ∀ c ∈ cs, isSeparator c = true) :
    content {} cs = [] := by
  rw [content_blanks fun c hc => isBlank_of_isSeparator (h c hc), List.filter_eq_nil_iff]
  intro c hc
  simp [h c hc]

end Quoting

/-! ## The splitter -/

/-- How the splitter reads the next character. -/
def Mode.quoting : Mode → Quoting
  | .plain => {}
  | .single => { quote := .single }
  | .double => { quote := .double }
  | .escaped => { escaped := true }
  | .doubleEscaped => { quote := .double, escaped := true }

/-- One character of a word: it ends the word, or it adds to it and leaves the splitter in some
mode. -/
theorem takeWord_cons (mode : Mode) (word : List Char) (c : Char) :
    (mode = .plain ∧ isSeparator c = true ∧
        ∀ x, takeWord mode word (c :: x) = .ok (word.reverse, x)) ∨
      ∃ mode' : Mode, mode'.quoting = mode.quoting.next c ∧
        ∀ x, takeWord mode word (c :: x) =
          takeWord mode' ((mode.quoting.kept c).reverse ++ word) x := by
  cases mode with
  | plain =>
      by_cases hsep : isSeparator c = true
      · exact .inl ⟨rfl, hsep, fun x => by simp only [takeWord, hsep, if_true]⟩
      · right
        by_cases hsingle : c = '\''
        · subst hsingle
          exact ⟨.single, rfl, fun x => rfl⟩
        · by_cases hdouble : c = '"'
          · subst hdouble
            exact ⟨.double, rfl, fun x => rfl⟩
          · by_cases hescape : c = '\\'
            · subst hescape
              exact ⟨.escaped, rfl, fun x => rfl⟩
            · refine ⟨.plain, ?_, fun x => ?_⟩
              · simp [Mode.quoting, Quoting.next, Quote.next, hsingle, hdouble, hescape]
              · simp [Mode.quoting, Quoting.kept, takeWord, hsep, hsingle, hdouble, hescape]
  | single =>
      right
      by_cases hquote : c = '\''
      · subst hquote
        exact ⟨.plain, rfl, fun x => rfl⟩
      · refine ⟨.single, ?_, fun x => ?_⟩
        · simp [Mode.quoting, Quoting.next, Quote.next, hquote]
        · simp [Mode.quoting, Quoting.kept, takeWord, hquote]
  | double =>
      right
      by_cases hquote : c = '"'
      · subst hquote
        exact ⟨.plain, rfl, fun x => rfl⟩
      · by_cases hescape : c = '\\'
        · subst hescape
          exact ⟨.doubleEscaped, rfl, fun x => rfl⟩
        · refine ⟨.double, ?_, fun x => ?_⟩
          · simp [Mode.quoting, Quoting.next, Quote.next, hquote, hescape]
          · simp [Mode.quoting, Quoting.kept, takeWord, hquote, hescape]
  | escaped => exact .inr ⟨.plain, rfl, fun x => rfl⟩
  | doubleEscaped =>
      refine .inr ⟨.double, rfl, fun x => ?_⟩
      by_cases hescape : c == '"' || c == '\\' <;>
        simp [Mode.quoting, Quoting.kept, takeWord, hescape]

/-- A text ends inside of a word only in the open. -/
theorem takeWord_nil {mode : Mode} {word w rest : List Char}
    (h : takeWord mode word [] = .ok (w, rest)) :
    mode = .plain ∧ w = word.reverse ∧ rest = [] := by
  cases mode with
  | plain =>
      cases h
      exact ⟨rfl, rfl, rfl⟩
  | single | double | escaped | doubleEscaped => cases h

/-- A word that is read is what a part of the text keeps, with its quotes closed. -/
theorem takeWord_ok {mode : Mode} {word cs w rest : List Char}
    (h : takeWord mode word cs = .ok (w, rest)) :
    ∃ u, cs = u ++ rest ∧ mode.quoting.after u = {} ∧
      w = word.reverse ++ mode.quoting.content u := by
  induction cs generalizing mode word with
  | nil =>
      obtain ⟨rfl, rfl, rfl⟩ := takeWord_nil h
      exact ⟨[], rfl, rfl, (List.append_nil _).symm⟩
  | cons c cs ih =>
      rcases takeWord_cons mode word c with ⟨rfl, hsep, hend⟩ | ⟨mode', hnext, hmore⟩
      · rw [hend] at h
        cases h
        refine ⟨[c], rfl, Quoting.after_separators (by simpa using hsep), ?_⟩
        simp [Mode.quoting, Quoting.kept, hsep]
      · rw [hmore] at h
        obtain ⟨u, rfl, hclosed, rfl⟩ := ih h
        rw [hnext] at hclosed
        refine ⟨c :: u, rfl, hclosed, ?_⟩
        simp [hnext]

/-- If no word is read, the end of the text tells why. -/
theorem takeWord_error {mode : Mode} {word cs : List Char} {fault : TokenFault}
    (h : takeWord mode word cs = .error fault) :
    (mode.quoting.after cs).fault? = some fault := by
  induction cs generalizing mode word with
  | nil => cases mode <;> cases h <;> rfl
  | cons c cs ih =>
      rcases takeWord_cons mode word c with ⟨rfl, hsep, hend⟩ | ⟨mode', hnext, hmore⟩
      · rw [hend] at h
        cases h
      · rw [hmore] at h
        have hfault := ih h
        rwa [hnext] at hfault

end InputScript.Word
