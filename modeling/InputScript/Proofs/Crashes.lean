import InputScript.Machine.Command
import InputScript.Word.First

/-!
# Crashes of pure computations

The pure computations that commands are made of crash for few reasons: a number that is too large to
be held, no words, a line without a piece, a division by zero.  `CrashesOnly C` says of a computation
that it crashes for no other reason than those of `C`; there is one lemma for each that may crash, and
most of them come down to a text that is read as a number (`TooLarge`).
-/

namespace InputScript

open Device (Item)

variable {ε ε' α β : Type}

/-- The computation crashes only as `C` allows. -/
def CrashesOnly (C : Crash → Prop) (r : Except (Trouble ε) α) : Prop :=
  ∀ c, r = .error (.crash c) → C c

namespace CrashesOnly

variable {C D : Crash → Prop}

theorem ok (a : α) : CrashesOnly C (.ok a : Except (Trouble ε) α) := nofun

theorem fault (e : ε) : CrashesOnly C (.error (.fault e) : Except (Trouble ε) α) := nofun

variable {r : Except (Trouble ε) α}

theorem mono (h : CrashesOnly C r) (himp : ∀ c, C c → D c) :
    CrashesOnly D r :=
  fun c hc => himp c (h c hc)

theorem bind {next : α → Except (Trouble ε) β} (h : CrashesOnly C r)
    (hnext : ∀ a, CrashesOnly C (next a)) : CrashesOnly C (r >>= next) := by
  cases r with
  | error trouble =>
      intro c hcrash
      cases hcrash
      exact h c rfl
  | ok a => exact hnext a

/-- The trouble of a part may be passed on. -/
theorem of_eq {trouble : Trouble ε} (h : CrashesOnly C r) (hr : r = .error trouble) :
    CrashesOnly C (.error trouble : Except _ β) := by
  intro c hcrash
  cases hcrash
  exact h c hr

/-- The trouble of a part may be taken for that of a larger computation. -/
theorem of_eq_map {f : ε → ε'} {trouble : Trouble ε} (h : CrashesOnly C r) (hr : r = .error trouble) :
    CrashesOnly C (.error (trouble.map f) : Except (Trouble ε') β) := by
  cases trouble with
  | fault e => exact fault _
  | crash c =>
      intro c' hcrash
      cases hcrash
      exact h c hr

end CrashesOnly

/-! ## Arguments -/

/-- The crash of a text that is read as a number: it is an integer beyond the range of numbers. -/
def TooLarge (text : String) (c : Crash) : Prop :=
  c = .overflow ∧ Number.readNumber text = .tooLarge

namespace Argument

theorem crashes_number (text : String) (verb : Option String) :
    CrashesOnly (TooLarge text) (number text verb) := by
  unfold number
  split
  · exact .ok _
  · exact .fault _
  · next hlarge =>
      intro c hcrash
      cases hcrash
      exact ⟨rfl, hlarge⟩

theorem crashes_duration (text : String) (verb : Option String) (what : String) :
    CrashesOnly (TooLarge text) (duration text verb what) := by
  refine (crashes_number text verb).bind fun x => ?_
  split
  · exact .fault _
  · exact .ok _

theorem crashes_relative (text : String) (verb : Option String) :
    CrashesOnly (TooLarge text) (relative text verb) := by
  refine (crashes_number text verb).bind fun x => ?_
  split
  · exact .ok _
  · exact .fault _

theorem crashes_absolute (text : String) (verb : Option String) :
    CrashesOnly (TooLarge text) (absolute text verb) := by
  refine (crashes_number text verb).bind fun x => ?_
  split
  · exact .ok _
  · exact .fault _

end Argument

namespace Machine

variable {C : Crash → Prop}

theorem crashes_readOptional {read : String → Except (Trouble ε) α} {text : Option String}
    (h : ∀ t ∈ text, CrashesOnly C (read t)) : CrashesOnly C (readOptional read text) := by
  cases text with
  | none => exact .ok _
  | some text =>
      rw [readOptional]
      split
      · next hcase => exact (h text rfl).of_eq hcase
      · exact .ok _

theorem crashes_readAll {read : String → Except (Trouble ε) α} {args : List String}
    (h : ∀ t ∈ args, CrashesOnly C (read t)) : CrashesOnly C (readAll read args) := by
  induction args with
  | nil => exact .ok _
  | cons arg args ih =>
      obtain ⟨harg, hargs⟩ := List.forall_mem_cons.mp h
      rw [readAll]
      split
      · next hcase => exact harg.of_eq hcase
      · split
        · next hcase => exact (ih hargs).of_eq hcase
        · exact .ok _

/-- What follows the equals sign of an item of a packet: the name of a key, or the value of an axis. -/
def itemValue? (isKey : Bool) (text : String) : Option String :=
  let (name, value?) := splitAssignment text
  let folded := Text.upper name
  if folded == "SYNC" || (folded == "KEYDOWN" || folded == "KEYUP") != isKey then none else value?

theorem crashes_readItem (verb text : String) :
    CrashesOnly (fun c => ∃ value ∈ itemValue? false text, TooLarge value c)
      (readItem verb text) := by
  unfold readItem
  dsimp only
  split
  · exact .ok _
  · next hsync =>
      split
      · exact .fault _
      · next value hvalue =>
          split
          · split
            · exact .fault _
            · exact .ok _
          · next hkey =>
              have hitem : itemValue? false text = some value := by
                simp [itemValue?, hsync, hkey, hvalue]
              split
              · exact .fault _
              · split
                · split
                  · next hcase =>
                      exact ((Argument.crashes_absolute value (some verb)).mono
                        fun c hc => ⟨value, hitem, hc⟩).of_eq_map hcase
                  · exact .ok _
                · split
                  · next hcase =>
                      exact ((Argument.crashes_relative value (some verb)).mono
                        fun c hc => ⟨value, hitem, hc⟩).of_eq_map hcase
                  · exact .ok _

/-- The crashes that are of a run and not of a command: for a `break` that no loop takes, and for
want of an end. -/
def OfRun (c : Crash) : Prop := c = .strayBreak ∨ c = .endless

theorem crashOf_ne {c : Crash} (hc : OfRun c) (cause : Unpassable) : crashOf cause ≠ c := by
  rcases hc with rfl | rfl
  · cases cause <;> nofun
  · cases cause <;> nofun

end Machine

theorem Device.tapCount_ne {c : Crash} (hc : Machine.OfRun c) (count : Option Int)
    (runTime : Option Binary64) (delay : Binary64) : tapCount count runTime delay ≠ .error c := by
  rcases hc with rfl | rfl
  all_goals
    unfold tapCount
    dsimp only
    split
    · nofun
    · split
      · nofun
      · split
        · nofun
        · split <;> nofun

/-! ## Words and commands -/

theorem Word.crashes_firstWord (text : String) :
    CrashesOnly (fun c => c = .noPiece ∧ Text.firstPiece text = none) (firstWord text) := by
  unfold firstWord
  split
  · exact .fault _
  · exact .ok _
  · split
    · next hpiece =>
        intro c hcrash
        cases hcrash
        exact ⟨rfl, hpiece⟩
    · split
      · exact .fault _
      · exact .ok _

namespace Invocation

/-- A word that is tried as an option may be read as a number first. -/
def OptionTooLarge (words : List String) (c : Crash) : Prop :=
  ∃ word ∈ words, word.toList.head? = some '-' ∧ TooLarge word c

theorem tooLarge_of_endsOptions {word : String} {c : Crash} (h : endsOptions word = .error c) :
    word.toList.head? = some '-' ∧ TooLarge word c := by
  unfold endsOptions at h
  split at h
  · cases h
  · next hword =>
      split at h
      · cases h
      · cases h
      · next hlarge =>
          cases h
          exact ⟨by rw [hword]; rfl, rfl, hlarge⟩
  · cases h

theorem crashes_takeOptions (verb : Verb) (options : List (Switch × Option String))
    (words : List String) :
    CrashesOnly (OptionTooLarge words) (takeOptions verb options words) := by
  have hmore : ∀ {word : String} {rest : List String} {c : Crash},
      OptionTooLarge rest c → OptionTooLarge (word :: rest) c := by
    rintro word rest c ⟨w, hw, hlarge⟩
    exact ⟨w, List.mem_cons_of_mem _ hw, hlarge⟩
  fun_induction takeOptions verb options words with
  | case2 options word rest crash hcrash =>
      intro c h
      cases h
      exact ⟨word, List.mem_cons_self, tooLarge_of_endsOptions hcrash⟩
  | case7 _ _ _ _ _ _ _ _ _ ih => exact ih.mono fun c hc => hmore (hmore hc)
  | case8 _ _ _ _ _ _ _ _ ih => exact ih.mono fun c hc => hmore hc
  | case1 | case3 | case4 | case5 | case6 => nofun

theorem crashes_takeArguments (verb : Verb) (words : List String) :
    CrashesOnly (fun c => verb.acceptsOptions = true ∧ OptionTooLarge words c)
      (takeArguments verb words) := by
  unfold takeArguments
  split
  · next haccepts =>
      split
      · next hcase =>
          exact ((crashes_takeOptions verb [] words).mono fun c hc => ⟨haccepts, hc⟩).of_eq hcase
      · exact .ok _
  · exact .ok _

/-- Words crash when they are bound if there are none, or for the options of their verb. -/
theorem crashes_bind (words : List String) (line : Option Nat) :
    CrashesOnly (fun c => (words = [] ∧ c = .noWords) ∨
        ∃ name rest verb, words = name :: rest ∧ Verb.ofName? name = some verb ∧
          verb.acceptsOptions = true ∧ OptionTooLarge rest c) (bind words line) := by
  unfold bind
  split
  · intro c hcrash
    cases hcrash
    exact .inl ⟨rfl, rfl⟩
  · next name rest =>
      split
      · exact .fault _
      · next verb hverb =>
          split
          · next hcase =>
              exact ((crashes_takeArguments verb rest).mono fun c hc =>
                .inr ⟨name, rest, verb, rfl, hverb, hc⟩).of_eq hcase
          · split
            · exact .fault _
            · exact .ok _

end Invocation

/-! ## Conditions -/

namespace Condition

variable {C : Crash → Prop}

/-- Whatever stops the scan is no crash, or one that `C` allows. -/
def Stop.CrashesOnly (C : Crash → Prop) (r : Except Stop α) : Prop :=
  ∀ stop c, r = .error stop → stop.trouble = .crash c → C c

namespace Stop.CrashesOnly

theorem ok (a : α) : Stop.CrashesOnly C (.ok a : Except Stop α) := nofun

/-- What stops a part of the scan stops the whole. -/
theorem of_eq {r : Except Stop α} {stop : Stop} (h : Stop.CrashesOnly C r) (hr : r = .error stop) :
    Stop.CrashesOnly C (.error stop : Except Stop β) := by
  intro stop' c hstop
  cases hstop
  exact h stop c hr

theorem trouble {r : Except Stop α} {stop : Stop} (h : Stop.CrashesOnly C r)
    (hr : r = .error stop) : InputScript.CrashesOnly C (.error stop.trouble : Except _ β) :=
  fun c hcrash => h stop c hr (Except.error.inj hcrash)

end Stop.CrashesOnly

namespace State

theorem crashes_complain (s : State) (c : Complaint) :
    Stop.CrashesOnly C (s.complain c : Except Stop α) := by
  intro stop c' h
  cases h
  nofun

theorem crashes_pushOp (s : State) (limit : Nat) (p : Pending) :
    Stop.CrashesOnly C (s.pushOp limit p) := by
  unfold pushOp
  split
  · exact crashes_complain _ _
  · exact .ok _

theorem crashes_pushValue (s : State) (limit : Nat) (x : Binary64) :
    Stop.CrashesOnly C (s.pushValue limit x) := by
  unfold pushValue
  split
  · exact crashes_complain _ _
  · exact .ok _

theorem crashes_apply (s : State) (op : Operator) : Stop.CrashesOnly C (s.apply op) := by
  unfold apply
  split
  · exact .ok _
  · exact .ok _
  · exact crashes_complain _ _

theorem crashes_reduce (least : Nat) (s : State) (ops : List Pending) :
    Stop.CrashesOnly C (s.reduce least ops) := by
  fun_induction reduce least s ops with
  | case1 s op ops _ stop hstop => exact (crashes_apply _ op).of_eq hstop
  | case2 s op ops _ s' _ ih => exact ih
  | case3 | case4 => exact .ok _

theorem crashes_closeGroup (s : State) : Stop.CrashesOnly C s.closeGroup := by
  unfold closeGroup
  split
  · next hcase => exact (crashes_reduce 0 s s.ops).of_eq hcase
  · split
    · exact .ok _
    · exact crashes_complain _ _

/-- A word that is neither a parenthesis nor an operator is read as a number. -/
theorem crashes_take (s : State) (limit : Nat) (token : String) :
    Stop.CrashesOnly (TooLarge token) (s.take limit token) := by
  unfold take
  split
  · split
    · exact crashes_pushOp _ _ _
    · exact crashes_complain _ _
  · split
    · split
      · exact crashes_complain _ _
      · exact crashes_closeGroup s
    · split
      · next op _ =>
          split
          · split
            · exact crashes_pushOp _ _ _
            · exact crashes_complain _ _
          · split
            · exact crashes_complain _ _
            · split
              · next hcase => exact (crashes_reduce op.precedence s s.ops).of_eq hcase
              · next s' _ =>
                  split
                  · next hcase => exact (crashes_pushOp s' limit (.op op)).of_eq hcase
                  · exact .ok _
      · split
        · next hlarge =>
            intro stop c hstop hcrash
            cases hstop
            cases hcrash
            exact ⟨rfl, hlarge⟩
        · exact crashes_complain _ _
        · next x _ =>
            split
            · split
              · next hcase => exact (crashes_pushValue s limit x).of_eq hcase
              · exact .ok _
            · exact crashes_complain _ _

theorem crashes_takeAll (limit : Nat) (s : State) (tokens : List String) :
    Stop.CrashesOnly (fun c => ∃ token ∈ tokens, TooLarge token c) (s.takeAll limit tokens) := by
  induction tokens generalizing s with
  | nil => exact .ok _
  | cons token tokens ih =>
      unfold takeAll
      split
      · next hcase =>
          intro stop c hstop hcrash
          exact ⟨token, List.mem_cons_self, (crashes_take s limit token).of_eq hcase stop c hstop hcrash⟩
      · next s' _ =>
          intro stop c hstop hcrash
          obtain ⟨t, ht, hlarge⟩ := ih s' stop c hstop hcrash
          exact ⟨t, List.mem_cons_of_mem _ ht, hlarge⟩

theorem crashes_finish (s : State) : Stop.CrashesOnly C s.finish := by
  unfold finish
  split
  · exact crashes_complain _ _
  · split
    · next hcase => exact (crashes_reduce 0 s s.ops).of_eq hcase
    · split
      · exact crashes_complain _ _
      · exact .ok _
      · exact crashes_complain _ _

end State

theorem crashes_evaluate (tokens : List String) (limit : Nat) :
    CrashesOnly (fun c => ∃ token ∈ tokens, TooLarge token c) (evaluate tokens limit).1 := by
  unfold evaluate
  split
  · next hcase => exact (State.crashes_takeAll limit {} tokens).trouble hcase
  · next s _ =>
      split
      · next hcase => exact s.crashes_finish.trouble hcase
      · exact .ok _

end Condition

end InputScript
