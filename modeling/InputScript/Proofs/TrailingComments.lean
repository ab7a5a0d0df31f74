import InputScript.Proofs.ParameterExpansion
import InputScript.Proofs.ScanAgreement
import InputScript.Proofs.Validation

/-!
# Comments behind a command

A comment ends a command, and is cut off with the blanks before it.  Cutting it off should leave the
words of the command as they are.  Two kinds of blanks stand in the way.  A blank that is escaped is a
part of a word, and what is left of it is a backslash with nothing to escape; and a blank that is none
of the separators of words is a part of the word before it.

If a command ends in neither, it keeps its words, whatever the comment holds; otherwise it never does.

## Main results

* `command_comment` — what is left of a command with a comment behind it.
* `comment_keeps_words_iff` — the words are the same exactly if the command ends plainly.
* `escaped_blank_is_cut` — a comment behind an escaped blank makes the line fail.
-/

namespace InputScript.Word

open Quoting (after content)

/-! ## The command before a comment -/

/-- A scan that may end here is outside of everything. -/
theorem eq_outside_of_finish {s : Scan} (hs : s.IsDirect)
    (h : (do s.finish; return none : Except CheckFault (Option (List Char))) = .ok none) :
    s = outside s.wordStart := by
  obtain ⟨quote, closers, backtick, wordStart⟩ := s
  obtain ⟨hclosers, hbacktick⟩ := hs
  dsimp only at hclosers hbacktick
  subst hclosers hbacktick
  cases quote with
  | none => rfl
  | single | double => cases h

/-- A text that is accepted as it stands leaves the scan outside of everything, unless its end is
escaped. -/
theorem over_of_accepted {text : List Char} (hplain : ∀ c ∈ text, isExpansion c = false)
    (h : check {} [] text = .ok none) (hescaped : (after {} text).escaped = false) :
    ∃ wordStart, Scan.over {} text = some (outside wordStart) := by
  have hfound := check_found {} [] text
  rw [h] at hfound
  cases hfound with
  | @atEnd _ s _ hover hend =>
      obtain ⟨hs, -⟩ := Scan.over_quoting ⟨rfl, rfl⟩ hplain hover
      exact ⟨s.wordStart, by rw [hover, ← eq_outside_of_finish hs hend]⟩
  | atEscape hover hescape hend =>
      obtain ⟨-, hrule⟩ := Scan.over_escape ⟨rfl, rfl⟩ hplain hover hescape
      have htrue : (after {} _).escaped = true := congrArg Quoting.escaped hrule
      rw [htrue] at hescaped
      cases hescaped

/-- A command that is its own line has no comment. -/
theorem check_of_command {t : String} (h : command t = .ok t) :
    check {} [] t.toList = .ok none := by
  unfold command at h
  cases hcheck : check {} [] t.toList with
  | error fault =>
      rw [hcheck] at h
      cases h
  | ok found =>
      cases found with
      | none => rfl
      | some before =>
          -- the part before the comment is shorter than the line
          rw [hcheck] at h
          obtain ⟨after, hafter⟩ := check_some hcheck
          obtain ⟨blanks, hblanks, -⟩ := trimEndChars_append before.reverse
          have htrim : t.toList = Text.trimEndChars before.reverse := by
            rw [← Except.ok.inj h, Text.trimEnd, String.toList_ofList, String.toList_ofList]
          have hlength := congrArg List.length hafter
          have hshort := congrArg List.length hblanks
          rw [htrim] at hlength
          simp only [List.length_append, List.length_reverse, List.length_cons, List.length_nil]
            at hlength hshort
          omega

theorem needsShell_trimEnd {t : String} (h : needsShell t = false) :
    needsShell (Text.trimEnd t) = false := by
  obtain ⟨blanks, ht, -⟩ := trimEndChars_append t.toList
  rw [needsShell, ht, List.any_append, Bool.or_eq_false_iff] at h
  rw [needsShell, Text.trimEnd, String.toList_ofList]
  exact h.1

theorem trimEndChars_space (cs : List Char) :
    Text.trimEndChars (cs ++ [' ']) = Text.trimEndChars cs := by
  have hblank : Text.isBlank ' ' = true := rfl
  simp [Text.trimEndChars, hblank]

/-- The command before a comment loses the blanks at its end, and nothing else. -/
theorem command_comment {t : String} (haccepted : command t = .ok t)
    (hplain : needsShell t = false) (hescaped : (after {} t.toList).escaped = false) (c : String) :
    command (t ++ " #" ++ c) = .ok (Text.trimEnd t) := by
  have hchars := isExpansion_of_mem hplain
  obtain ⟨wordStart, hover⟩ := over_of_accepted hchars (check_of_command haccepted) hescaped
  have htext : (t ++ " #" ++ c).toList = t.toList ++ ' ' :: '#' :: c.toList := by simp
  have hcomment : ∀ seen : List Char, check (outside wordStart) seen (' ' :: '#' :: c.toList) =
      .ok (some (' ' :: seen)) := by
    intro seen
    cases c.toList <;> rfl
  have hcheck : check {} [] (t ++ " #" ++ c).toList = .ok (some (' ' :: t.toList.reverse)) := by
    rw [htext, check_over hover (fun _ => rfl), hcomment, List.append_nil]
  unfold command
  rw [hcheck]
  simp only [Text.trimEnd, String.toList_ofList, List.reverse_cons, List.reverse_reverse,
    trimEndChars_space]

/-! ## The words before a comment -/

/-- Separators behind a text leave its first word, and are left behind what follows it. -/
theorem firstToken_append_separators {cs rest separators : List Char} {word : String}
    (h : firstToken cs = .ok (some (word, rest)))
    (hseparators : ∀ c ∈ separators, isSeparator c = true) :
    ∃ behind, firstToken (cs ++ separators) = .ok (some (word, rest ++ behind)) ∧
      ∀ c ∈ behind, isSeparator c = true := by
  cases hstart : cs.dropWhile isSeparator with
  | nil =>
      rw [firstToken, hstart] at h
      cases h
  | cons c start =>
      have hdrop : (cs ++ separators).dropWhile isSeparator = (c :: start) ++ separators := by
        rw [List.dropWhile_append, hstart, List.isEmpty_cons, if_neg Bool.false_ne_true]
      rw [firstToken_of_start hstart (List.cons_ne_nil c start)] at h
      rw [firstToken_of_start hdrop (List.cons_ne_nil c _)]
      obtain ⟨⟨w, rest'⟩, hword, hr⟩ := map_eq_ok.mp h
      cases hr
      rcases takeWord_append hword with hinside | ⟨rfl, hreaches⟩
      · exact ⟨separators, by rw [hinside]; rfl, hseparators⟩
      · rw [hreaches]
        cases separators with
        | nil =>
            refine ⟨[], ?_, hseparators⟩
            rw [takeWord, List.reverse_reverse]
            rfl
        | cons d separators =>
            obtain ⟨hd, hseparators⟩ := List.forall_mem_cons.mp hseparators
            refine ⟨separators, ?_, hseparators⟩
            rw [takeWord, hd, if_pos rfl, List.reverse_reverse]
            rfl

/-- Separators behind a text that can be split change nothing. -/
theorem tokens_append_separators {cs separators : List Char} {words : List String}
    (h : tokens cs = .ok words) (hseparators : ∀ c ∈ separators, isSeparator c = true) :
    tokens (cs ++ separators) = .ok words := by
  induction words generalizing cs separators with
  | nil =>
      rcases tokens_eq_ok h with ⟨hnone, -⟩ | ⟨_, _, _, -, -, hwords⟩
      · refine tokens_separators fun c hc => ?_
        rcases List.mem_append.mp hc with hc | hc
        · exact separators_of_firstToken hnone c hc
        · exact hseparators c hc
      · cases hwords
  | cons word words ih =>
      rcases tokens_eq_ok h with ⟨-, hwords⟩ | ⟨_, rest, _, hfirst, hrest, hwords⟩
      · cases hwords
      · cases hwords
        obtain ⟨behind, hfirst', hbehind⟩ := firstToken_append_separators hfirst hseparators
        exact tokens_cons hfirst' (ih hrest hbehind)

/-- Only separators of words are trimmed from the end of the text: no blank that is escaped, and none
that separates no words. -/
structure EndsPlainly (text : String) : Prop where
  separators : ∃ blanks, text.toList = (Text.trimEnd text).toList ++ blanks ∧
    ∀ c ∈ blanks, isSeparator c = true
  unescaped : (after {} (Text.trimEnd text).toList).escaped = false

/-- A text keeps its words without the blanks at its end exactly if it ends plainly. -/
theorem tokens_trimEnd_iff {text : String} {words : List String}
    (h : tokens text.toList = .ok words) :
    tokens (Text.trimEnd text).toList = .ok words ↔ EndsPlainly text := by
  obtain ⟨hclosed, hcontent⟩ := content_of_tokens h
  constructor
  · intro htrim
    obtain ⟨hclosed', hcontent'⟩ := content_of_tokens htrim
    obtain ⟨blanks, htext, hblanks⟩ := trimEndChars_append text.toList
    have hcode : (Text.trimEnd text).toList = Text.trimEndChars text.toList :=
      String.toList_ofList
    rw [← hcode] at htext
    -- the blanks add nothing to the words, so each of them is a separator
    have hnothing : content {} blanks = [] := by
      have hboth : content {} (Text.trimEnd text).toList =
          content {} (Text.trimEnd text).toList ++ content {} blanks := by
        calc content {} (Text.trimEnd text).toList
            = content {} text.toList := hcontent'.symm.trans hcontent
          _ = content {} ((Text.trimEnd text).toList ++ blanks) := congrArg (content {}) htext
          _ = content {} (Text.trimEnd text).toList ++ content {} blanks := by
              rw [Quoting.content_append, hclosed']
      exact List.self_eq_append_right.mp hboth
    refine ⟨⟨blanks, htext, fun c hc => ?_⟩, by rw [hclosed']⟩
    rw [Quoting.content_blanks hblanks, List.filter_eq_nil_iff] at hnothing
    simpa using hnothing c hc
  · rintro ⟨⟨blanks, htext, hblanks⟩, hescaped⟩
    have hquote : (after {} (Text.trimEnd text).toList).quote = .none := by
      rw [htext, Quoting.after_append] at hclosed
      rw [← Quoting.quote_after_blanks fun c hc => Quoting.isBlank_of_isSeparator (hblanks c hc),
        hclosed]
    cases htrim : tokens (Text.trimEnd text).toList with
    | error fault =>
        rw [tokens_eq_error, Quoting.fault?_of_quote hquote, hescaped] at htrim
        cases htrim.2
    | ok words' =>
        rw [htext, tokens_append_separators htrim hblanks] at h
        exact h

/-! ## Lines with a comment -/

variable {σ ω : Type} [Host σ]

/-- A comment behind a command that is accepted as it stands leaves its words as they are exactly if
the command ends plainly. -/
theorem comment_keeps_words_iff {shell t : String} {line : Option Nat} {s s' : Session σ ω}
    {words : List String} (haccepted : command t = .ok t) (hplain : needsShell t = false)
    (hwords : (Expansion.split shell t line).exec s = (.ok words, s')) (c : String) :
    (Expansion.split shell (t ++ " #" ++ c) line).exec s = (.ok words, s') ↔ EndsPlainly t := by
  obtain ⟨htokens, rfl⟩ := (Expansion.exec_split_iff haccepted hplain).mp hwords
  have hescaped : (after {} t.toList).escaped = false := by rw [(content_of_tokens htokens).1]
  have hcomment := command_comment haccepted hplain hescaped c
  rw [Expansion.exec_split_iff hcomment (needsShell_trimEnd hplain), tokens_trimEnd_iff htokens]
  exact and_iff_left rfl

/-- A command that ends in a tab keeps its words before a comment with quotes and specials. -/
theorem comment_keeps_words_quoted :
    (Expansion.split "/bin/sh" "echo 'a  b' \\#\t" none).exec Machine.idle =
        (.ok ["echo", "a  b", "#"], Machine.idle) ∧
      (Expansion.split "/bin/sh" ("echo 'a  b' \\#\t" ++ " #" ++ " it's $HOME | (") none).exec
        Machine.idle = (.ok ["echo", "a  b", "#"], Machine.idle) := by
  have haccepted : command "echo 'a  b' \\#\t" = .ok "echo 'a  b' \\#\t" := rfl
  have hwords : (Expansion.split "/bin/sh" "echo 'a  b' \\#\t" none).exec Machine.idle =
      (.ok ["echo", "a  b", "#"], Machine.idle) :=
    Expansion.exec_split haccepted rfl (by cbv) none Machine.idle
  have hplainly : EndsPlainly "echo 'a  b' \\#\t" :=
    ⟨⟨['\t'], rfl, List.forall_mem_singleton.mpr rfl⟩, rfl⟩
  exact ⟨hwords, (comment_keeps_words_iff haccepted rfl hwords _).mpr hplainly⟩

/-- The blank that is escaped at the end of the command is cut off with the comment, and the line
fails. -/
theorem escaped_blank_is_cut :
    command "echo a\\ " = .ok "echo a\\ " ∧ needsShell "echo a\\ " = false ∧
      (Expansion.split "/bin/sh" "echo a\\ " none).exec Machine.idle =
        (.ok ["echo", "a "], Machine.idle) ∧
      (Expansion.split "/bin/sh" ("echo a\\ " ++ " #" ++ " press") none).exec Machine.idle =
        (.error (.fault { fault := .word (.unsplittable .nothingEscaped) }), Machine.idle) := by
  have haccepted : command "echo a\\ " = .ok "echo a\\ " := rfl
  have hcut : command ("echo a\\ " ++ " #" ++ " press") = .ok "echo a\\" := rfl
  exact ⟨haccepted, rfl, Expansion.exec_split haccepted rfl (by cbv) none Machine.idle,
    Expansion.exec_split_error hcut rfl (by cbv) none Machine.idle⟩

end InputScript.Word
