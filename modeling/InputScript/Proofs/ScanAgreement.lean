import InputScript.Proofs.FirstWord
import InputScript.Proofs.ParameterExpansion

/-!
# The two scans of a line agree

A line is scanned for refused characters before it is split.  So the splitter should never come upon
a quote that does not end: the scan has refused it.  The one thing that the scan lets through, and
the splitter does not, is a backslash with nothing behind it to escape.

Both scans follow the quotes and escapes of the text (`Quoting`), so what either of them finds at the
end of a text is a matter of the quoting there.  A comment is cut off with the blanks before it, which
leaves the quotes as they were, but not an escape.

## Main results

* `tokens_quoting` — the words of a text together are what it keeps, and a text that cannot be split
  shows the reason at its end.
* `scans_agree` — the splitter fails on the command of a line exactly if it ends in a backslash that
  has nothing to escape, and on every line that is refused for an open quote.
-/

namespace InputScript.Word

open Quoting (after content)

/-! ## The words of a text -/

/-- The first word of a text is read behind the separators that it begins with, if they are not all
of it. -/
theorem firstToken_cases (cs : List Char) :
    ∃ separators start, cs = separators ++ start ∧ (∀ c ∈ separators, isSeparator c = true) ∧
      ((start = [] ∧ firstToken cs = .ok none) ∨
        firstToken cs =
          (takeWord .plain [] start).map fun r => some (String.ofList r.1, r.2)) := by
  refine ⟨cs.takeWhile isSeparator, cs.dropWhile isSeparator,
    List.takeWhile_append_dropWhile.symm, List.all_eq_true.mp List.all_takeWhile, ?_⟩
  cases hstart : cs.dropWhile isSeparator with
  | nil => exact .inl ⟨rfl, by rw [firstToken, hstart]⟩
  | cons c start => exact .inr (firstToken_of_start hstart (List.cons_ne_nil c start))

variable {cs : List Char}

/-- A text without words. -/
theorem separators_of_firstToken (h : firstToken cs = .ok none) :
    ∀ c ∈ cs, isSeparator c = true := by
  obtain ⟨separators, start, rfl, hseparators, ⟨rfl, -⟩ | hfirst⟩ := firstToken_cases cs
  · rwa [List.append_nil]
  · rw [hfirst] at h
    obtain ⟨r, -, hr⟩ := map_eq_ok.mp h
    cases hr

/-- The first word and those of what follows it are the words of a text. -/
theorem tokens_cons {rest : List Char} {word : String} {words : List String}
    (hfirst : firstToken cs = .ok (some (word, rest))) (hrest : tokens rest = .ok words) :
    tokens cs = .ok (word :: words) := by
  rw [tokens]
  split
  · next h =>
      rw [hfirst] at h
      cases h
  · next h =>
      rw [hfirst] at h
      cases h
  · next h =>
      rw [hfirst] at h
      cases h
      rw [hrest]

theorem tokens_separators (h : ∀ c ∈ cs, isSeparator c = true) :
    tokens cs = .ok [] := by
  have hfirst : firstToken cs = .ok none := by
    have hdrop : cs.dropWhile isSeparator = [] := by
      rw [← List.append_nil cs, List.dropWhile_append_of_pos h]
      rfl
    rw [firstToken, hdrop]
  rw [tokens]
  split
  · next h =>
      rw [hfirst] at h
      cases h
  · rfl
  · next h =>
      rw [hfirst] at h
      cases h

/-- The first word of a text is what a part of the text keeps, with its quotes closed. -/
theorem firstToken_some {rest : List Char} {word : String}
    (h : firstToken cs = .ok (some (word, rest))) :
    ∃ u, cs = u ++ rest ∧ after {} u = {} ∧ word.toList = content {} u := by
  obtain ⟨separators, start, hcs, hseparators, ⟨-, hnone⟩ | hfirst⟩ := firstToken_cases cs
  · rw [hnone] at h
    cases h
  · rw [hfirst] at h
    obtain ⟨⟨w, rest'⟩, hword, hr⟩ := map_eq_ok.mp h
    cases hr
    obtain ⟨u, rfl, hclosed, rfl⟩ := takeWord_ok hword
    refine ⟨separators ++ u, ?_, ?_, ?_⟩
    · rw [hcs, List.append_assoc]
    · rw [Quoting.after_append, Quoting.after_separators hseparators]
      exact hclosed
    · rw [Quoting.content_append, Quoting.content_separators hseparators,
        Quoting.after_separators hseparators, String.toList_ofList]
      rfl

/-- If a text has a first word that cannot be read, its end tells why. -/
theorem firstToken_error {fault : TokenFault} (h : firstToken cs = .error fault) :
    (after {} cs).fault? = some fault := by
  obtain ⟨separators, start, hcs, hseparators, ⟨-, hnone⟩ | hfirst⟩ := firstToken_cases cs
  · rw [hnone] at h
    cases h
  · rw [hfirst] at h
    have hword : takeWord .plain [] start = .error fault := by
      cases hword : takeWord .plain [] start <;> rw [hword] at h <;> cases h
      rfl
    rw [hcs, Quoting.after_append, Quoting.after_separators hseparators]
    exact takeWord_error hword

/-- The words of a text together are what it keeps, with all quotes closed; a text that has none
shows the reason at its end. -/
theorem tokens_quoting (cs : List Char) :
    match tokens cs with
    | .ok words => after {} cs = {} ∧ words.flatMap String.toList = content {} cs
    | .error fault => (after {} cs).fault? = some fault := by
  fun_induction tokens cs with
  | case1 cs fault hfirst => exact firstToken_error hfirst
  | case2 cs hfirst =>
      have hseparators := separators_of_firstToken hfirst
      exact ⟨Quoting.after_separators hseparators, (Quoting.content_separators hseparators).symm⟩
  | case3 cs word rest hfirst hlt fault hrest ih =>
      rw [hrest] at ih
      obtain ⟨u, rfl, hclosed, -⟩ := firstToken_some hfirst
      rw [Quoting.after_append, hclosed]
      exact ih
  | case4 cs word rest hfirst hlt words hrest ih =>
      rw [hrest] at ih
      obtain ⟨u, rfl, hclosed, hword⟩ := firstToken_some hfirst
      constructor
      · rw [Quoting.after_append, hclosed]
        exact ih.1
      · rw [List.flatMap_cons, hword, Quoting.content_append, hclosed]
        exact congrArg (content {} u ++ ·) ih.2

theorem content_of_tokens {words : List String} (h : tokens cs = .ok words) :
    after {} cs = {} ∧ words.flatMap String.toList = content {} cs := by
  have hquoting := tokens_quoting cs
  rwa [h] at hquoting

/-- The fault of a text that cannot be split is that of its end. -/
theorem tokens_eq_error {fault : TokenFault} :
    tokens cs = .error fault ↔ (after {} cs).fault? = some fault := by
  have hquoting := tokens_quoting cs
  cases htokens : tokens cs with
  | error fault' =>
      rw [htokens] at hquoting
      rw [hquoting]
      simp
  | ok words =>
      rw [htokens] at hquoting
      rw [hquoting.1]
      simp [Quoting.fault?]

/-! ## The scan of a line -/

/-- What the scan of a text can find, and where: at the end, at a last character that would escape the
next, at a comment, or at a character that is refused. -/
inductive Found (s : Scan) (seen : List Char) :
    List Char → Except CheckFault (Option (List Char)) → Prop
  | atEnd {text : List Char} {s' : Scan} {found : Except CheckFault (Option (List Char))}
      (hover : s.over text = some s') (hend : (do s'.finish; return none) = found) :
      Found s seen text found
  | atEscape {u : List Char} {c : Char} {s' : Scan}
      {found : Except CheckFault (Option (List Char))} (hover : s.over u = some s')
      (hescape : s'.escapes c = true) (hend : (do s'.finish; return none) = found) :
      Found s seen (u ++ [c]) found
  | atComment {u rest : List Char} {c : Char} {s' : Scan} (hover : s.over u = some s')
      (hcomment : s'.startsComment c = true) :
      Found s seen (u ++ c :: rest) (.ok (some (u.reverse ++ seen)))
  | atRefused {u rest : List Char} {c : Char} {s' : Scan} {fault : CheckFault}
      (hover : s.over u = some s') (hstep : s'.step c = .error fault) :
      Found s seen (u ++ c :: rest) (.error fault)

/-- What is found behind a piece that the scan has passed. -/
theorem Found.behind {s s₁ : Scan} {seen rest : List Char}
    {found : Except CheckFault (Option (List Char))} (piece : List Char)
    (hpiece : ∀ u, u <+: rest → s.over (piece ++ u) = s₁.over u)
    (h : Found s₁ (piece.reverse ++ seen) rest found) : Found s seen (piece ++ rest) found := by
  cases h with
  | atEnd hover hend => exact .atEnd ((hpiece _ List.prefix_rfl).trans hover) hend
  | atEscape hover hescape hend =>
      rw [← List.append_assoc]
      exact .atEscape ((hpiece _ (List.prefix_append _ _)).trans hover) hescape hend
  | atComment hover hcomment =>
      rw [← List.append_assoc, ← List.append_assoc, ← List.reverse_append]
      exact .atComment ((hpiece _ (List.prefix_append _ _)).trans hover) hcomment
  | atRefused hover hstep =>
      rw [← List.append_assoc]
      exact .atRefused ((hpiece _ (List.prefix_append _ _)).trans hover) hstep

/-- The scan finds one of these. -/
theorem check_found (s : Scan) (seen text : List Char) :
    Found s seen text (check s seen text) := by
  fun_induction check s seen text with
  | case1 s seen => exact .atEnd rfl rfl
  | case2 s seen c hescape => exact .atEscape (u := []) rfl hescape rfl
  | case3 s seen c hescape hcomment => exact .atComment (u := []) rfl hcomment
  | case4 s seen c hescape hcomment =>
      cases hstep : s.step c with
      | error fault => exact .atRefused (u := []) rfl hstep
      | ok s' =>
          refine .atEnd (?_ : s.over [c] = some s') rfl
          simp [Scan.over, hescape, hcomment, hstep, Except.toOption]
  | case5 s seen c d rest hescape ih =>
      refine .behind [c, d] (fun u _ => ?_) ih
      simp [Scan.over, hescape]
  | case6 s seen c d rest hescape closer hopen ih =>
      refine .behind [c, d] (fun u _ => ?_) ih
      simp [Scan.over, hescape, hopen]
  | case7 s seen c d rest hescape hopen hcomment => exact .atComment (u := []) rfl hcomment
  | case8 s seen c d rest hescape hopen hcomment fault hstep =>
      exact .atRefused (u := []) rfl hstep
  | case9 s seen c d rest hescape hopen hcomment s' hstep ih =>
      refine .behind [c] (fun u hu => ?_) ih
      cases u with
      | nil => simp [Scan.over, hescape, hcomment, hstep, Except.toOption]
      | cons e u =>
          obtain ⟨rfl, -⟩ := List.cons_prefix_cons.mp hu
          simp [Scan.over, hescape, hopen, hcomment, hstep]

namespace Scan

/-- How the scan reads the next character. -/
def quoting (s : Scan) : Quoting := { quote := s.quote }

/-- No substitution is open. -/
structure IsDirect (s : Scan) : Prop where
  closers : s.closers = []
  backtick : s.backtick = false

variable {s s' : Scan} {c : Char}

theorem substitution?_of_plain (hc : isExpansion c = false) (s : Scan) (d : Char) :
    s.substitution? c d = none := by
  have hdollar : c ≠ '$' := by
    rintro rfl
    cases hc
  simp [substitution?, hdollar]

/-- A character that escapes the next. -/
theorem next_of_escapes (h : s.escapes c = true) :
    s.quoting.next c = { quote := s.quote, escaped := true } := by
  simp only [escapes] at h
  simp [quoting, Quoting.next, h]

/-- The scan stops at refused characters only. -/
theorem step_error {fault : CheckFault} (h : s.step c = .error fault) : ∃ d, fault = .illegal d := by
  unfold step at h
  dsimp only at h
  repeat' split at h
  all_goals cases h
  exact ⟨c, rfl⟩

/-- A character that the scan passes changes the quote by the rule. -/
theorem step_quoting (hs : s.IsDirect) (hc : isExpansion c = false)
    (hescape : s.escapes c = false) (h : s.step c = .ok s') :
    s'.IsDirect ∧ s'.quoting = s.quoting.next c := by
  have hbacktick : c ≠ '`' := by
    rintro rfl
    cases hc
  have hrule : s.quoting.next c = { quote := s.quote.next c } := by
    simp only [escapes] at hescape
    simp [quoting, Quoting.next, hescape]
  obtain ⟨quote, closers, backtick, wordStart⟩ := s
  obtain ⟨hclosers, hopen⟩ := hs
  dsimp only at hclosers hopen
  subst hclosers hopen
  rw [hrule]
  cases quote with
  | none =>
      by_cases hsingle : c = '\''
      · subst hsingle
        cases h
        exact ⟨⟨rfl, rfl⟩, rfl⟩
      · by_cases hdouble : c = '"'
        · subst hdouble
          cases h
          exact ⟨⟨rfl, rfl⟩, rfl⟩
        · have hnone : Quote.none.next c = .none := by simp [Quote.next, hsingle, hdouble]
          simp only [step, beq_iff_eq, hsingle, hdouble, hbacktick, if_false, List.isEmpty_nil,
            Bool.not_true, Bool.or_false, Bool.false_eq_true] at h
          rw [hnone]
          split at h
          · cases h
            exact ⟨⟨rfl, rfl⟩, rfl⟩
          · split at h
            · cases h
            · cases h
              exact ⟨⟨rfl, rfl⟩, rfl⟩
  | single =>
      simp only [step, Except.ok.injEq] at h
      subst h
      unfold Quote.next
      cases c == '\'' <;> exact ⟨⟨rfl, rfl⟩, rfl⟩
  | double =>
      simp only [step, Except.ok.injEq] at h
      subst h
      unfold Quote.next
      cases c == '"' <;> exact ⟨⟨rfl, rfl⟩, rfl⟩

/-- A part of a line that the scan passes changes the quote by the rule. -/
theorem over_quoting {text : List Char} (hs : s.IsDirect)
    (hplain : ∀ c ∈ text, isExpansion c = false) (h : s.over text = some s') :
    s'.IsDirect ∧ s'.quoting = s.quoting.after text := by
  fun_induction Scan.over s text with
  | case1 s =>
      cases h
      exact ⟨hs, rfl⟩
  | case2 s c hstop => cases h
  | case3 s c hgo =>
      rw [Bool.not_eq_true, Bool.or_eq_false_iff] at hgo
      exact step_quoting hs (hplain c List.mem_cons_self) hgo.1 (step_of_toOption h)
  | case4 s c d rest hescape ih =>
      have hrest : ∀ e ∈ rest, isExpansion e = false := by
        intro e he
        exact hplain e (List.mem_cons_of_mem c (List.mem_cons_of_mem d he))
      rw [Quoting.after_cons, next_of_escapes hescape]
      exact ih ⟨hs.closers, hs.backtick⟩ hrest h
  | case5 s c d rest hescape closer hopen ih =>
      rw [substitution?_of_plain (hplain c List.mem_cons_self)] at hopen
      cases hopen
  | case6 s c d rest hescape hopen hcomment => cases h
  | case7 s c d rest hescape hopen hcomment fault hstep => cases h
  | case8 s c d rest hescape hopen hcomment next hstep ih =>
      obtain ⟨hc, hrest⟩ := List.forall_mem_cons.mp hplain
      obtain ⟨hnext, hrule⟩ := step_quoting hs hc (Bool.eq_false_iff.mpr hescape) hstep
      rw [Quoting.after_cons, ← hrule]
      exact ih hnext hrest h

/-- The last character of a text escapes the one behind it. -/
theorem over_escape {u : List Char} (hs : s.IsDirect)
    (hplain : ∀ d ∈ u ++ [c], isExpansion d = false) (h : s.over u = some s')
    (hescape : s'.escapes c = true) :
    s'.IsDirect ∧ s.quoting.after (u ++ [c]) = { quote := s'.quote, escaped := true } := by
  have hu : ∀ d ∈ u, isExpansion d = false := fun d hd => hplain d (List.mem_append_left _ hd)
  obtain ⟨hs', hrule⟩ := over_quoting hs hu h
  refine ⟨hs', ?_⟩
  rw [Quoting.after_append, ← hrule]
  exact next_of_escapes hescape

end Scan

/-! ## The command of a line -/

theorem isExpansion_of_mem {text : String} (h : needsShell text = false) :
    ∀ c ∈ text.toList, isExpansion c = false := by
  intro c hc
  exact Bool.eq_false_iff.mpr (List.any_eq_false.mp h c hc)

/-- What is found in a text fits its quotes: they are closed where the text, or the part before a
comment, is accepted, and not where an open quote is found. -/
def FitsQuotes (text : List Char) : Except CheckFault (Option (List Char)) → Prop
  | .ok none => (after {} text).quote = .none
  | .ok (some before) => (after {} before.reverse).quote = .none
  | .error (.openQuote _) => (after {} text).quote ≠ .none
  | .error _ => True

theorem fitsQuotes_finish {text : List Char} {s : Scan} (hs : s.IsDirect)
    (hquote : (after {} text).quote = s.quote) : FitsQuotes text (do s.finish; return none) := by
  obtain ⟨quote, closers, backtick, wordStart⟩ := s
  obtain ⟨hclosers, hbacktick⟩ := hs
  dsimp only at hclosers hbacktick hquote
  subst hclosers hbacktick
  cases quote with
  | none => exact hquote
  | single | double =>
      intro hnone
      rw [hquote] at hnone
      cases hnone

/-- The scan finds what fits the quotes of a text without expansions. -/
theorem check_fitsQuotes {text : List Char} (hplain : ∀ c ∈ text, isExpansion c = false) :
    FitsQuotes text (check {} [] text) := by
  have hfound := check_found {} [] text
  generalize check {} [] text = found at hfound
  cases hfound with
  | atEnd hover hend =>
      obtain ⟨hs, hrule⟩ := Scan.over_quoting ⟨rfl, rfl⟩ hplain hover
      subst hend
      exact fitsQuotes_finish hs (congrArg Quoting.quote hrule).symm
  | @atEscape u c s _ hover hescape hend =>
      obtain ⟨hs, hrule⟩ := Scan.over_escape ⟨rfl, rfl⟩ hplain hover hescape
      subst hend
      exact fitsQuotes_finish hs (congrArg Quoting.quote hrule)
  | @atComment u rest c s hover hcomment =>
      have hu : ∀ c ∈ u, isExpansion c = false := fun c hc => hplain c (List.mem_append_left _ hc)
      obtain ⟨-, hrule⟩ := Scan.over_quoting ⟨rfl, rfl⟩ hu hover
      have hquote := congrArg Quoting.quote hrule
      simp only [FitsQuotes, List.append_nil, List.reverse_reverse]
      exact hquote.symm.trans (startsComment_eq hcomment).2
  | @atRefused u rest c s fault hover hstep =>
      obtain ⟨d, rfl⟩ := Scan.step_error hstep
      trivial

/-- The quotes of a command are closed. -/
theorem quote_of_command {text code : String} (hplain : needsShell text = false)
    (h : command text = .ok code) : (after {} code.toList).quote = .none := by
  have hfits := check_fitsQuotes (isExpansion_of_mem hplain)
  unfold command at h
  cases hcheck : check {} [] text.toList with
  | error fault =>
      rw [hcheck] at h
      cases h
  | ok found =>
      rw [hcheck] at h hfits
      cases found with
      | none =>
          cases h
          exact hfits
      | some before =>
          cases h
          obtain ⟨blanks, hbefore, hblanks⟩ := trimEndChars_append before.reverse
          rw [FitsQuotes, hbefore, Quoting.after_append, Quoting.quote_after_blanks hblanks] at hfits
          rwa [Text.trimEnd, String.toList_ofList, String.toList_ofList]

/-- A line that is refused for an open quote ends inside of one. -/
theorem quote_of_openQuote {text : String} {mark : Char} (hplain : needsShell text = false)
    (h : command text = .error (.openQuote mark)) : (after {} text.toList).quote ≠ .none := by
  have hfits := check_fitsQuotes (isExpansion_of_mem hplain)
  unfold command at h
  cases hcheck : check {} [] text.toList with
  | error fault =>
      rw [hcheck] at h hfits
      cases h
      exact hfits
  | ok found =>
      rw [hcheck] at h
      cases found <;> cases h

/-- The text ends in a backslash that is neither escaped nor in single quotes. -/
def EndsInBackslash (text : String) : Prop :=
  ∃ u, text.toList = u ++ ['\\'] ∧ (after {} u).escaped = false ∧ (after {} u).quote ≠ .single

/-- On the command of a line the splitter fails for want of a character to escape, and does so exactly
if the command ends in a backslash that is neither escaped nor in single quotes.  It also fails on a
line that is refused because a quote is open. -/
theorem scans_agree {text : String} (hplain : needsShell text = false) :
    (∀ code, command text = .ok code →
      (∀ fault, tokens code.toList = .error fault → fault.message = "No escaped character") ∧
        ((∃ fault, tokens code.toList = .error fault) ↔ EndsInBackslash code)) ∧
      ∀ mark, command text = .error (.openQuote mark) →
        ∃ fault, tokens text.toList = .error fault := by
  refine ⟨fun code hcode => ?_, fun mark hmark => ?_⟩
  · have hquote := quote_of_command hplain hcode
    have hescaped : ∀ fault, tokens code.toList = .error fault ↔
        fault = .nothingEscaped ∧ (after {} code.toList).escaped = true := by
      intro fault
      rw [tokens_eq_error, Quoting.fault?_of_quote hquote]
    constructor
    · intro fault hfault
      rw [((hescaped fault).mp hfault).1]
      rfl
    · unfold EndsInBackslash
      rw [← Quoting.escaped_after]
      exact ⟨fun ⟨fault, hfault⟩ => ((hescaped fault).mp hfault).2,
        fun h => ⟨.nothingEscaped, (hescaped _).mpr ⟨rfl, h⟩⟩⟩
  · have hquote := quote_of_openQuote hplain hmark
    have hfault : (after {} text.toList).fault? ≠ none := by
      intro hnone
      rw [Quoting.fault?_eq_none.mp hnone] at hquote
      exact hquote rfl
    obtain ⟨fault, hfault⟩ := Option.ne_none_iff_exists'.mp hfault
    exact ⟨fault, tokens_eq_error.mpr hfault⟩

/-- The comment of the first line is cut off with the blank that was escaped before it; the second
line ends inside of a quote, after an escape. -/
theorem scans_agree_cutEscape :
    command "echo \"a'\" b\\  # c" = .ok "echo \"a'\" b\\" ∧
      (∃ fault, tokens "echo \"a'\" b\\".toList = .error fault) ∧
      command "echo \"a\\" = .error (.openQuote '"') ∧
      ∃ fault, tokens "echo \"a\\".toList = .error fault := by
  have hcut : command "echo \"a'\" b\\  # c" = .ok "echo \"a'\" b\\" := rfl
  have hopen : command "echo \"a\\" = .error (.openQuote '"') := rfl
  have hends : EndsInBackslash "echo \"a'\" b\\" :=
    ⟨"echo \"a'\" b".toList, by decide, by decide, by decide⟩
  exact ⟨hcut, ((scans_agree rfl).1 _ hcut).2.mpr hends, hopen, (scans_agree rfl).2 _ hopen⟩

end InputScript.Word
