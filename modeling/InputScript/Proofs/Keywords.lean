import InputScript.Proofs.Blocks
import InputScript.Proofs.ScanAgreement
import InputScript.Proofs.Transition
import InputScript.Proofs.Validation

/-!
# Keywords of lines that are not executed

A line that is stored or skipped is judged by its first word as it stands; a line that is executed is
split first, and its first word decides which verb is called upon.  A line without expansions and
without a comment is judged the same in both ways, however its keyword is quoted or spaced.

What the verb makes of the other words is left open: it may be carried out, or refuse its options or
the number of its arguments.  A complaint belongs to the verb as well (`Invocation.Fault.verb?`).

## Main results

* `verb_of_complaint` — what is wrong with a command is a matter of the verb that its first word
  names.
* `keyword_is_dispatched` — a line counts as the beginning, the end or the `else` of a block exactly
  if executing it calls upon that verb.
-/

namespace InputScript

variable {words : List String}

namespace Invocation

/-- The verb that a complaint about a command belongs to. -/
def Fault.verb? : Fault → Option Verb
  | .unknownCommand _ => none
  | .unknownOption verb _ | .duplicateOption verb _ | .missingParameter verb _ => some verb
  | .tooFew verb | .tooMany verb => some verb

theorem verb_of_takeOptions {verb : Verb} {options : List (Switch × Option String)} {f : Fault}
    (h : takeOptions verb options words = .error (.fault f)) : f.verb? = some verb := by
  fun_induction takeOptions verb options words with
  | case1 | case2 | case3 => cases h
  | case4 | case5 | case6 =>
      cases h
      rfl
  | case7 _ _ _ _ _ _ _ _ _ ih => exact ih h
  | case8 _ _ _ _ _ _ _ _ ih => exact ih h

theorem verb_of_takeArguments {verb : Verb} {f : Fault}
    (h : takeArguments verb words = .error (.fault f)) : f.verb? = some verb := by
  unfold takeArguments at h
  split at h
  · split at h
    · next trouble htrouble =>
        cases h
        exact verb_of_takeOptions htrouble
    · cases h
  · cases h

theorem verb_of_checkArity {verb : Verb} {count : Nat} {f : Fault}
    (h : checkArity verb count = .error f) : f.verb? = some verb := by
  unfold checkArity at h
  repeat' split at h
  all_goals cases h
  all_goals rfl

/-- What is wrong with a command is a matter of the verb that its first word names, if there is
one. -/
theorem verb_of_complaint {name : String} {args : List String} {line : Option Nat} {f : Fault}
    (h : bind (name :: args) line = .error (.fault f)) : Verb.ofName? name = f.verb? := by
  simp only [bind] at h
  split at h
  · next hverb =>
      cases h
      exact hverb
  · next verb hverb =>
      rw [hverb]
      split at h
      · next trouble harguments =>
          cases h
          exact (verb_of_takeArguments harguments).symm
      · split at h
        · next harity =>
            cases h
            exact (verb_of_checkArity harity).symm
        · cases h

end Invocation

namespace Machine

/-- Where lines are stored or skipped, the word counts as what the verb does to a block. -/
structure CountsAs (word : String) (verb? : Option Verb) : Prop where
  opener : Mark.ofWord (some word) = .opener ↔ ∃ verb, verb? = some verb ∧ verb.opensBlock = true
  closer : Mark.ofWord (some word) = .closer ↔ verb? = some .close
  otherwise : isWord .otherwise (some word) = true ↔ verb? = some .otherwise

/-- A word counts as the verb that it names. -/
theorem countsAs_ofName (word : String) : CountsAs word (Verb.ofName? word) := by
  cases hverb : Verb.ofName? word with
  | none =>
      have hmark : Mark.ofWord (some word) = .neutral := by rw [Mark.ofWord, hverb]
      have hword : isWord .otherwise (some word) = false := by
        refine beq_eq_false_iff_ne.mpr fun hname => ?_
        rw [Option.some.inj hname, Verb.ofName?_name] at hverb
        cases hverb
      exact ⟨by simp [hmark], by simp [hmark], by simp [hword]⟩
  | some verb =>
      obtain rfl := Verb.name_of_ofName? hverb
      refine ⟨?_, ?_, ?_⟩
      · rw [Mark.ofWord_name]
        cases verb <;> simp [Verb.opensBlock]
      · rw [Mark.ofWord_name]
        cases verb <;> simp [Verb.opensBlock]
      · cases verb <;> simp [isWord, Verb.name]

end Machine

/-! ## Lines -/

/-- A text that begins with no blank has a word, if it can be split. -/
theorem Word.exists_cons_of_tokens {cs rest : List Char} {c : Char} (htext : cs = c :: rest)
    (hc : Text.isBlank c = false) (h : tokens cs = .ok words) :
    ∃ word more, words = word :: more := by
  rcases tokens_eq_ok h with ⟨hnone, -⟩ | ⟨word, -, more, -, -, rfl⟩
  · have hseparator : isSeparator c = true :=
      separators_of_firstToken hnone c (htext ▸ List.mem_cons_self)
    rw [Quoting.isBlank_of_isSeparator hseparator] at hc
    cases hc
  · exact ⟨word, more, rfl⟩

namespace Machine

variable {σ ω : Type} [Host σ] [Device.Sink ω]

/-- A line that has words is executed by dispatching them. -/
theorem exec_executeLine_of_split {settings : Settings} {line : Script.Line} {word : String}
    {more : List String} {s s' : Session σ ω}
    (h : (Expansion.split settings.shell line.text (some line.number)).exec s =
      (.ok (word :: more), s'))
    (inherited : Option Countdown) (a : Activation) :
    (executeLine settings inherited a line).exec s =
      (dispatch settings inherited a (word :: more) (some line.number)).exec s' := by
  rw [executeLine, Act.exec_bind_of_ok h]
  rfl

/-- The first word of a line without expansions and without a comment is the word that it is
executed by, so where the line is stored or skipped it counts as the verb that executing it calls
upon. -/
theorem keyword_is_dispatched {settings : Settings} {line : Script.Line} {words : List String}
    {s s' : Session σ ω} (htrim : Text.trim line.text = line.text) (hne : line.text ≠ "")
    (hplain : Word.needsShell line.text = false) (haccepted : Word.command line.text = .ok line.text)
    (hsplit : (Expansion.split settings.shell line.text (some line.number)).exec s =
      (.ok words, s')) :
    ∃ word more, words = word :: more ∧ Word.firstWord line.text = .ok (some word) ∧
      (∀ inherited a, (executeLine settings inherited a line).exec s =
        (dispatch settings inherited a words (some line.number)).exec s) ∧
      (∀ inv, Invocation.bind words (some line.number) = .ok inv → CountsAs word (some inv.verb)) ∧
      (∀ fault, Invocation.bind words (some line.number) = .error (.fault fault) →
        CountsAs word fault.verb?) := by
  obtain ⟨htokens, rfl⟩ := (Expansion.exec_split_iff haccepted hplain).mp hsplit
  obtain ⟨c, rest, htext, hc⟩ := Text.exists_cons_of_trim (htrim.symm ▸ hne)
  rw [htrim] at htext
  obtain ⟨word, more, rfl⟩ := Word.exists_cons_of_tokens htext hc htokens
  refine ⟨word, more, rfl, Word.firstWord_of_tokens htext hc hplain htokens,
    exec_executeLine_of_split hsplit, fun inv hinv => ?_, fun fault hfault => ?_⟩
  · rw [← (verb_of_bind hinv).1]
    exact countsAs_ofName word
  · rw [← Invocation.verb_of_complaint hfault]
    exact countsAs_ofName word

/-- A loop whose keyword is quoted in part, with too many words behind it. -/
def quotedLoop : Script.Line := ⟨1, "lo'op' \"2\" i j"⟩

theorem keyword_is_dispatched_quoted :
    (Expansion.split ({} : Settings).shell quotedLoop.text (some quotedLoop.number)).exec idle =
        (.ok ["loop", "2", "i", "j"], idle) ∧
      Invocation.bind ["loop", "2", "i", "j"] (some quotedLoop.number) =
        .error (.fault (.tooMany .loop)) ∧
      Word.firstWord quotedLoop.text = .ok (some "loop") ∧ CountsAs "loop" (some .loop) := by
  have hsplit : (Expansion.split ({} : Settings).shell quotedLoop.text (some quotedLoop.number)).exec
      idle = (.ok ["loop", "2", "i", "j"], idle) := Expansion.exec_split rfl rfl (by cbv) _ idle
  have hbind : Invocation.bind ["loop", "2", "i", "j"] (some quotedLoop.number) =
      .error (.fault (.tooMany .loop)) := by cbv
  obtain ⟨word, more, hwords, hfirst, -, -, hcounts⟩ :=
    keyword_is_dispatched (by cbv) (by decide) rfl rfl hsplit
  obtain ⟨rfl, rfl⟩ := List.cons.inj hwords
  exact ⟨hsplit, hbind, hfirst, hcounts _ hbind⟩

end Machine

end InputScript
