import InputScript.Proofs.Action
import InputScript.Proofs.Program
import InputScript.Proofs.Quoting

/-!
# First words

Lines that are collected or skipped are judged by their first word as it stands, lines that are
executed by the first word they have once they are split.  For a line that is split in process the
two agree, but for one oddity: where a comment is cut off, all blanks before it go, also those that
separate no words.  A word that such blanks follow loses them when the line is executed.

## Main results

* `Word.head_tokens` — the first word of a line against the words of its command; in the odd case the
  first word names no verb, and the command is at most one word.
* `Expansion.split_ok` — how the words of a line came about.
-/

namespace InputScript

variable {words : List String} {word : Option String} {rest : List Char} {c : Char}

namespace Word

/-! ## Words -/

/-- A word that is read ends inside of the text, whatever follows it, or reaches to its end and goes
on with what follows. -/
theorem takeWord_append {mode : Mode} {word x w : List Char}
    (h : takeWord mode word x = .ok (w, rest)) :
    (∀ y, takeWord mode word (x ++ y) = .ok (w, rest ++ y)) ∨
      (rest = [] ∧ ∀ y, takeWord mode word (x ++ y) = takeWord .plain w.reverse y) := by
  induction x generalizing mode word with
  | nil =>
      obtain ⟨rfl, rfl, rfl⟩ := takeWord_nil h
      exact .inr ⟨rfl, fun y => by rw [List.nil_append, List.reverse_reverse]⟩
  | cons c x ih =>
      rcases takeWord_cons mode word c with ⟨-, -, hend⟩ | ⟨mode', -, hmore⟩
      · rw [hend] at h
        cases h
        exact .inl fun y => hend _
      · rw [hmore] at h
        simp only [List.cons_append, hmore]
        exact ih h

theorem mem_takeWord {mode : Mode} {word x w : List Char} (h : takeWord mode word x = .ok (w, rest))
    (hc : c ∈ word) : c ∈ w := by
  obtain ⟨u, -, -, rfl⟩ := takeWord_ok h
  exact List.mem_append_left _ (List.mem_reverse.mpr hc)

theorem map_eq_ok {ε α β : Type} {f : α → β} {x : Except ε α} {b : β} :
    x.map f = .ok b ↔ ∃ a, x = .ok a ∧ f a = b := by
  cases x <;> simp [Except.map]

/-- The words of a text: none, or the first one and those of what follows it. -/
theorem tokens_eq_ok {cs : List Char} (h : tokens cs = .ok words) :
    (firstToken cs = .ok none ∧ words = []) ∨
      ∃ word rest more, firstToken cs = .ok (some (word, rest)) ∧ tokens rest = .ok more ∧
        words = word :: more := by
  rw [tokens] at h
  split at h
  · cases h
  · next hfirst =>
      cases h
      exact .inl ⟨hfirst, rfl⟩
  · next word rest hfirst =>
      dsimp only at h
      split at h
      · cases h
      · next more hmore =>
          cases h
          exact .inr ⟨word, rest, more, hfirst, hmore, rfl⟩

/-- The first word of a text that begins with one. -/
theorem firstToken_of_start {cs start : List Char} (h : cs.dropWhile isSeparator = start)
    (hstart : start ≠ []) :
    firstToken cs = (takeWord .plain [] start).map fun r => some (String.ofList r.1, r.2) := by
  unfold firstToken
  rw [h]
  split
  · exact absurd rfl hstart
  · rcases takeWord .plain [] start with e | r <;> rfl

/-! ## Commands -/

/-- A comment begins with a `#`, outside of quotes. -/
theorem startsComment_eq {s : Scan} (h : s.startsComment c = true) :
    c = '#' ∧ s.quote = .none := by
  simp only [Scan.startsComment, Bool.and_eq_true, beq_iff_eq] at h
  exact ⟨h.1.1.1.1, h.1.1.2⟩

/-- What stands before a comment is a part of the line. -/
theorem check_some {s : Scan} {seen text before : List Char}
    (h : check s seen text = .ok (some before)) :
    ∃ after, seen.reverse ++ text = before.reverse ++ '#' :: after := by
  fun_induction check s seen text with
  | case1 s seen =>
      rcases hend : s.finish with e | _ <;> rw [hend] at h <;> cases h
  | case2 s seen c hescape =>
      rcases hend : ({ s with wordStart := false } : Scan).finish with e | _ <;>
        rw [hend] at h <;> cases h
  | case3 s seen c hescape hcomment =>
      cases h
      exact ⟨[], by rw [(startsComment_eq hcomment).1]⟩
  | case4 s seen c hescape hcomment =>
      rcases hstep : s.step c with e | s'
      · rw [hstep] at h
        cases h
      · rcases hend : s'.finish with e | _ <;> simp [hstep, hend, bind, Except.bind] at h
        cases h
  | case5 s seen c d rest hescape ih => simpa using ih h
  | case6 s seen c d rest hescape closer hopen ih => simpa using ih h
  | case7 s seen c d rest hescape hopen hcomment =>
      cases h
      exact ⟨d :: rest, by rw [(startsComment_eq hcomment).1]⟩
  | case8 => cases h
  | case9 s seen c d rest hescape hopen hcomment s' hstep ih => simpa using ih h

/-- Trimming the end of a text takes away blanks. -/
theorem trimEndChars_append (cs : List Char) :
    ∃ blanks, cs = Text.trimEndChars cs ++ blanks ∧ ∀ c ∈ blanks, Text.isBlank c = true := by
  refine ⟨(cs.reverse.takeWhile Text.isBlank).reverse, ?_, fun c hc => ?_⟩
  · rw [Text.trimEndChars, ← List.reverse_append, List.takeWhile_append_dropWhile,
      List.reverse_reverse]
  · exact List.all_eq_true.mp List.all_takeWhile c (List.mem_reverse.mp hc)

variable {text : String}

/-- The command of a line is the line, or it is a part that blanks and a comment follow. -/
theorem command_eq_ok {code : String} (h : command text = .ok code) :
    code = text ∨ ∃ blanks after, text.toList = code.toList ++ (blanks ++ '#' :: after) ∧
      ∀ c ∈ blanks, Text.isBlank c = true := by
  unfold command at h
  split at h
  · cases h
  · cases h
    exact .inl rfl
  · next before hcheck =>
      cases h
      obtain ⟨after, hafter⟩ := check_some hcheck
      obtain ⟨blanks, hblanks, hall⟩ := trimEndChars_append before.reverse
      refine .inr ⟨blanks, after, ?_, hall⟩
      rw [Text.trimEnd, String.toList_ofList, String.toList_ofList, ← List.append_assoc, ← hblanks]
      exact hafter

/-- A line without characters of the shell is a command without them. -/
theorem needsShell_of_command {code : String} (h : command text = .ok code)
    (hplain : needsShell text = false) : needsShell code = false := by
  rcases command_eq_ok h with rfl | ⟨blanks, after, htext, -⟩
  · exact hplain
  · rw [needsShell, htext, List.any_append, Bool.or_eq_false_iff] at hplain
    exact hplain.1

/-- The first word of a line is the first one that the splitter finds. -/
theorem firstToken_of_firstWord (h : firstWord text = .ok word) :
    ∃ token, firstToken text.toList = .ok token ∧ word = token.map Prod.fst := by
  unfold firstWord at h
  split at h
  · cases h
  · next hfirst =>
      cases h
      exact ⟨none, hfirst, rfl⟩
  · next w rest hfirst =>
      split at h
      · cases h
      · split at h
        · cases h
        · cases h
          exact ⟨some (w, rest), hfirst, rfl⟩

theorem head_tokens_self (hword : firstWord text = .ok word)
    (htokens : tokens text.toList = .ok words) :
    words.head? = word := by
  obtain ⟨token, hfirst, rfl⟩ := firstToken_of_firstWord hword
  rcases tokens_eq_ok htokens with ⟨hnone, rfl⟩ | ⟨w, rest, more, hsome, -, rfl⟩
  · rw [hnone] at hfirst
    cases hfirst
    rfl
  · rw [hsome] at hfirst
    cases hfirst
    rfl

/-! ## Comments behind a word -/

/-- Characters that no verb has in its name. -/
def isForeign (c : Char) : Bool := Text.isBlank c || c == '#'

theorem foreign_name (verb : Verb) : verb.name.toList.any isForeign = false := by
  cases verb <;> rfl

theorem ne_name_of_foreign {w : List Char} (hc : c ∈ w) (hforeign : isForeign c = true)
    (verb : Verb) : some (String.ofList w) ≠ some verb.name := by
  intro h
  have hnone := foreign_name verb
  rw [← Option.some.inj h, String.toList_ofList, List.any_eq_false] at hnone
  exact hnone c hc hforeign

/-- A foreign character that separates no words is a part of its word. -/
theorem takeWord_foreign (hforeign : isForeign c = true) (hsep : isSeparator c = false)
    (word rest : List Char) :
    takeWord .plain word (c :: rest) = takeWord .plain (c :: word) rest := by
  have hother : ∀ d, isForeign d = false → (c == d) = false := by
    intro d hd
    refine beq_eq_false_iff_ne.mpr fun heq => ?_
    rw [heq, hd] at hforeign
    cases hforeign
  simp [takeWord, hsep, hother '\'' rfl, hother '"' rfl, hother '\\' rfl]

/-- A word that goes on with a foreign character names no verb. -/
theorem ne_name_of_takeWord {word w rest' : List Char} (hforeign : isForeign c = true)
    (hsep : isSeparator c = false) (h : takeWord .plain word (c :: rest) = .ok (w, rest'))
    (verb : Verb) :
    some (String.ofList w) ≠ some verb.name := by
  rw [takeWord_foreign hforeign hsep] at h
  exact ne_name_of_foreign (mem_takeWord h List.mem_cons_self) hforeign verb

/-- Blanks and a comment begin with a separator or with a foreign character. -/
theorem comment_cons {blanks : List Char} (h : ∀ c ∈ blanks, Text.isBlank c = true)
    (after : List Char) :
    ∃ c tail, blanks ++ '#' :: after = c :: tail ∧ isForeign c = true := by
  cases blanks with
  | nil => exact ⟨'#', after, rfl, rfl⟩
  | cons c blanks =>
      refine ⟨c, blanks ++ '#' :: after, rfl, ?_⟩
      rw [isForeign, h c List.mem_cons_self, Bool.true_or]

/-- After its separators a comment begins with a foreign character. -/
theorem comment_dropWhile {blanks : List Char} (h : ∀ c ∈ blanks, Text.isBlank c = true)
    (after : List Char) :
    ∃ c tail, (blanks ++ '#' :: after).dropWhile isSeparator = c :: tail ∧ isForeign c = true ∧
      isSeparator c = false := by
  induction blanks with
  | nil => exact ⟨'#', after, rfl, rfl, rfl⟩
  | cons c blanks ih =>
      rw [List.cons_append, List.dropWhile_cons]
      split
      · exact ih fun d hd => h d (List.mem_cons_of_mem c hd)
      · next hsep =>
          refine ⟨c, _, rfl, ?_, Bool.eq_false_iff.mpr hsep⟩
          rw [isForeign, h c List.mem_cons_self, Bool.true_or]

/-- The first word of a line and the words of its command: the first of them is that word.  Only
where blanks that separate no words stand before a comment may this fail; the first word then names
no verb, and the command is at most one word. -/
theorem head_tokens {code : String} (hcommand : command text = .ok code)
    (hword : firstWord text = .ok word) (htokens : tokens code.toList = .ok words) :
    words.head? = word ∨ (words.length ≤ 1 ∧ ∀ verb : Verb, word ≠ some verb.name) := by
  rcases command_eq_ok hcommand with rfl | ⟨blanks, after, htext, hblanks⟩
  · exact .inl (head_tokens_self hword htokens)
  · obtain ⟨token, hfirst, rfl⟩ := firstToken_of_firstWord hword
    rw [htext] at hfirst
    cases hstart : code.toList.dropWhile isSeparator with
    | nil =>
        -- the command is empty, and the first word begins in the comment
        obtain ⟨c, tail, hcomment, hforeign, hsep⟩ := comment_dropWhile hblanks after
        have hdrop : (code.toList ++ (blanks ++ '#' :: after)).dropWhile isSeparator = c :: tail := by
          rw [List.dropWhile_append, hstart, List.isEmpty_nil, if_pos rfl, hcomment]
        rw [firstToken_of_start hdrop (List.cons_ne_nil c tail)] at hfirst
        obtain ⟨⟨w, rest⟩, hw, rfl⟩ := map_eq_ok.mp hfirst
        refine .inr ⟨?_, ne_name_of_takeWord hforeign hsep hw⟩
        rcases tokens_eq_ok htokens with ⟨-, rfl⟩ | ⟨w, rest, more, hsome, -, -⟩
        · exact Nat.zero_le 1
        · rw [firstToken, hstart] at hsome
          cases hsome
    | cons c start =>
        have hdrop : (code.toList ++ (blanks ++ '#' :: after)).dropWhile isSeparator =
            (c :: start) ++ (blanks ++ '#' :: after) := by
          rw [List.dropWhile_append, hstart, List.isEmpty_cons, if_neg Bool.false_ne_true]
        rw [firstToken_of_start hdrop (List.cons_ne_nil c _)] at hfirst
        rcases tokens_eq_ok htokens with ⟨hnone, -⟩ | ⟨w, rest, more, hsome, hmore, rfl⟩
        · rw [firstToken_of_start hstart (List.cons_ne_nil c start)] at hnone
          obtain ⟨r, -, hr⟩ := map_eq_ok.mp hnone
          cases hr
        · rw [firstToken_of_start hstart (List.cons_ne_nil c start)] at hsome
          obtain ⟨⟨w', rest'⟩, hw', hr⟩ := map_eq_ok.mp hsome
          cases hr
          rcases takeWord_append hw' with hinside | ⟨rfl, hreaches⟩
          · rw [hinside] at hfirst
            cases hfirst
            exact .inl rfl
          · -- the only word of the command reaches to its end
            obtain ⟨d, tail, hcomment, hforeign⟩ := comment_cons hblanks after
            rw [hreaches, hcomment] at hfirst
            obtain ⟨⟨v, rest⟩, hv, rfl⟩ := map_eq_ok.mp hfirst
            rcases hsep : isSeparator d with _ | _
            · refine .inr ⟨?_, ne_name_of_takeWord hforeign hsep hv⟩
              rcases tokens_eq_ok hmore with ⟨-, rfl⟩ | ⟨_, _, _, hmore', -, -⟩
              · exact Nat.le_refl 1
              · cases hmore'
            · rw [takeWord, hsep, if_pos rfl, List.reverse_reverse] at hv
              cases hv
              exact .inl rfl

end Word

/-! ## First pieces -/

/-- A trimmed text begins with a character that is not blank, if it has any. -/
theorem Text.exists_cons_of_trim {s : String} (h : Text.trim s ≠ "") :
    ∃ c rest, (Text.trim s).toList = c :: rest ∧ Text.isBlank c = false := by
  have hchars : (Text.trim s).toList = Text.trimChars s.toList := by
    rw [Text.trim, String.toList_ofList]
  cases hcs : Text.trimChars s.toList with
  | nil =>
      rw [hcs] at hchars
      exact absurd (String.toList_eq_nil_iff.mp hchars) h
  | cons c rest =>
      obtain ⟨blanks, happend, -⟩ := Word.trimEndChars_append (s.toList.dropWhile Text.isBlank)
      have hstart : s.toList.dropWhile Text.isBlank = c :: (rest ++ blanks) := by
        rw [happend, ← Text.trimChars, hcs, List.cons_append]
      have hhead := List.head?_dropWhile_not Text.isBlank s.toList
      rw [hstart] at hhead
      exact ⟨c, rest, hchars.trans hcs, hhead⟩

/-- A trimmed text that is kept begins with a character that is not blank. -/
theorem Text.trim_cons {s : String} (h : Script.isDropped (Text.trim s) = false) :
    ∃ c rest, (Text.trim s).toList = c :: rest ∧ Text.isBlank c = false := by
  refine Text.exists_cons_of_trim fun hempty => ?_
  rw [hempty] at h
  cases h

/-- The first piece of a text that does not begin with a blank. -/
theorem Text.firstPiece_of_cons {s : String} (h : s.toList = c :: rest)
    (hc : Text.isBlank c = false) :
    ∃ piece, Text.firstPiece s = some piece ∧ ∀ d ∈ piece.toList, d ∈ s.toList := by
  have hdrop : s.toList.dropWhile Text.isBlank = s.toList := by
    rw [h, List.dropWhile_cons_of_neg (by rw [hc]; exact Bool.false_ne_true)]
  have htake : (s.toList.takeWhile fun c => !Text.isBlank c) ≠ [] := by
    rw [h, List.takeWhile_cons_of_pos (by rw [hc]; rfl)]
    exact List.cons_ne_nil _ _
  refine ⟨String.ofList (s.toList.takeWhile fun c => !Text.isBlank c), ?_, fun d hd => ?_⟩
  · unfold Text.firstPiece
    rw [hdrop]
    split
    · next hnil => exact absurd hnil htake
    · rfl
  · rw [String.toList_ofList] at hd
    exact (List.takeWhile_sublist _).subset hd

/-- The first word of a line that can be split as it stands. -/
theorem Word.firstWord_of_tokens {text : String} (htext : text.toList = c :: rest)
    (hc : Text.isBlank c = false) (hplain : needsShell text = false)
    (htokens : tokens text.toList = .ok words) :
    firstWord text = .ok words.head? := by
  obtain ⟨piece, hpiece, hsub⟩ := Text.firstPiece_of_cons htext hc
  have hhead : needsShell piece = false := by
    rw [needsShell, List.any_eq_false] at hplain ⊢
    exact fun d hd => hplain d (hsub d hd)
  rw [firstWord]
  rcases tokens_eq_ok htokens with ⟨hnone, rfl⟩ | ⟨word, _, _, hsome, -, rfl⟩
  · rw [hnone]
    rfl
  · rw [hsome]
    simp only [hpiece, hhead, Bool.false_eq_true, if_false, List.head?_cons]

/-! ## Splitting a line -/

variable {σ ω : Type} [Host σ] {shell : String}

/-- A line is split by the shell or in process. -/
theorem Expansion.split_ok {text : String} {line : Option Nat} {s s' : Session σ ω}
    (h : (split shell text line).exec s = (.ok words, s')) :
    ∃ code, Word.command text = .ok code ∧
      ((Word.needsShell code = true ∧ (expand shell code).exec s = (.ok words, s')) ∨
        (Word.needsShell code = false ∧ Word.tokens code.toList = .ok words ∧ s' = s)) := by
  rw [split, Act.exec_tryCatch] at h
  rcases hwords : (Expansion.words shell text : Act σ ω _).exec s with ⟨(f | c) | ws, s₁⟩
  · rw [hwords] at h
    cases h
  · rw [hwords] at h
    cases h
  · rw [hwords] at h
    cases h
    unfold Expansion.words at hwords
    split at hwords
    · cases hwords
    · next code hcommand =>
        refine ⟨code, hcommand, ?_⟩
        split at hwords
        · next hshell => exact .inl ⟨hshell, hwords⟩
        · next hshell =>
            split at hwords
            · cases hwords
            · next ws htokens =>
                cases hwords
                exact .inr ⟨Bool.eq_false_iff.mpr hshell, htokens, rfl⟩

/-- A line that needs no shell is split in process. -/
theorem Expansion.exec_split {text code : String} (hcommand : Word.command text = .ok code)
    (hshell : Word.needsShell code = false) (htokens : Word.tokens code.toList = .ok words)
    (line : Option Nat) (s : Session σ ω) :
    (split shell text line).exec s = (.ok words, s) := by
  have hwords : (Expansion.words shell text : Act σ ω _) = pure words := by
    unfold Expansion.words
    simp only [hcommand, hshell, htokens]
    rfl
  rw [split, Act.exec_tryCatch, hwords]
  rfl

/-- A line that needs no shell and cannot be split fails at its number. -/
theorem Expansion.exec_split_error {text code : String} {fault : Word.TokenFault}
    (hcommand : Word.command text = .ok code) (hshell : Word.needsShell code = false)
    (htokens : Word.tokens code.toList = .error fault) (line : Option Nat) (s : Session σ ω) :
    (split shell text line).exec s =
      (.error (.fault { fault := .word (.unsplittable fault), line }), s) := by
  have hwords : (Expansion.words shell text : Act σ ω _) =
      Act.fail (.word (.unsplittable fault)) := by
    unfold Expansion.words
    simp only [hcommand, hshell, htokens]
    rfl
  rw [split, Act.exec_tryCatch, hwords]
  rfl

/-- The words of a line that needs no shell are those of its command. -/
theorem Expansion.exec_split_iff {text code : String} (hcommand : Word.command text = .ok code)
    (hshell : Word.needsShell code = false) {line : Option Nat} {s s' : Session σ ω} :
    (split shell text line).exec s = (.ok words, s') ↔
      Word.tokens code.toList = .ok words ∧ s' = s := by
  constructor
  · intro h
    obtain ⟨code', hcode, ⟨hneeds, -⟩ | ⟨-, htokens, hs⟩⟩ := split_ok h
    · rw [hcommand] at hcode
      cases hcode
      rw [hshell] at hneeds
      cases hneeds
    · rw [hcommand] at hcode
      cases hcode
      exact ⟨htokens, hs⟩
  · rintro ⟨htokens, rfl⟩
    exact exec_split hcommand hshell htokens line _

/-- Whether a line is split in process and has no comment. -/
def Word.isLiteral (text : String) : Bool :=
  match command text with
  | .ok code => code == text && !needsShell code
  | .error _ => false

/-- A literal line keeps its keyword. -/
theorem Machine.keepsKeyword_of_isLiteral {line : Script.Line} (h : Word.isLiteral line.text = true) :
    KeepsKeyword σ ω shell line := by
  intro word hword s s' words hsplit verb _
  obtain ⟨code, hcode, hwords⟩ := Expansion.split_ok hsplit
  simp only [Word.isLiteral, hcode, Bool.and_eq_true, beq_iff_eq, Bool.not_eq_true'] at h
  obtain ⟨rfl, hshell⟩ := h
  rcases hwords with ⟨hneeds, -⟩ | ⟨-, htokens, -⟩
  · rw [hshell] at hneeds
    cases hneeds
  · rw [Word.head_tokens_self hword htokens]

end InputScript
