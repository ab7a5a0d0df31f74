import InputScript.Proofs.Program
import InputScript.Proofs.Reading
import InputScript.Proofs.Run
import InputScript.Proofs.Stack

/-!
# Lines of blocks

The machine finds the end of a block by counting: each line that begins with `loop` or `if` opens a
block, each that begins with `end` closes one.  Over the lines of a `Block` the count comes out even,
so a body is collected up to the line that closes it in the tree (`takeBody_block`), and a branch
that is not taken is skipped as a whole (`skip_block`).
-/

namespace InputScript.Machine

open Device (Sink)
open Script (Line DecodeFault)

variable {line : Line} {word : Option String} {o : Omission}

/-! ## Marks -/

theorem Mark.ofWord_name (verb : Verb) :
    Mark.ofWord (some verb.name) =
      if verb = .close then .closer else if verb.opensBlock then .opener else .neutral := by
  rw [Mark.ofWord, Verb.ofName?_name]
  cases verb <;> rfl

/-- A word that is no keyword neither opens nor closes a block. -/
theorem Mark.ofWord_plain (h : ∀ verb : Verb, verb.isControl = true → word ≠ some verb.name) :
    Mark.ofWord word = .neutral := by
  cases word with
  | none => rfl
  | some word =>
      rw [Mark.ofWord]
      cases hverb : Verb.ofName? word with
      | none => rfl
      | some verb =>
          have hcontrol := h verb
          rw [Verb.name_of_ofName? hverb] at hcontrol
          cases verb <;> first | rfl | exact absurd rfl (hcontrol rfl)

theorem Plain.mark (line : Plain) : Mark.ofWord line.word = .neutral :=
  Mark.ofWord_plain line.plain

/-! ## Collecting -/

/-- The body with lines in front. -/
def Body.prepend (lines : List Line) (body : Body) : Body :=
  { body with lines := lines ++ body.lines }

theorem Body.prepend_prepend (first second : List Line) (r : Except BodyFault Body) :
    (r.map (Body.prepend second)).map (Body.prepend first) =
      r.map (Body.prepend (first ++ second)) := by
  cases r with
  | error e => rfl
  | ok body => simp [Except.map, Body.prepend]

section TakeBody

variable (n : Nat) (rest : List Line) (hword : Word.firstWord line.text = .ok word)

include hword

theorem takeBody_neutral (hmark : Mark.ofWord word = .neutral) :
    takeBody n (line :: rest) = (takeBody n rest).map (Body.prepend [line]) := by
  rw [takeBody]
  simp only [hword, hmark]
  cases takeBody n rest <;> rfl

theorem takeBody_opener (hmark : Mark.ofWord word = .opener) :
    takeBody n (line :: rest) = (takeBody (n + 1) rest).map (Body.prepend [line]) := by
  rw [takeBody]
  simp only [hword, hmark]
  cases takeBody (n + 1) rest <;> rfl

theorem takeBody_closer_succ (hmark : Mark.ofWord word = .closer) :
    takeBody (n + 1) (line :: rest) = (takeBody n rest).map (Body.prepend [line]) := by
  rw [takeBody]
  simp only [hword, hmark]
  cases takeBody n rest <;> rfl

theorem takeBody_closer_zero (hmark : Mark.ofWord word = .closer) :
    takeBody 0 (line :: rest) = .ok ⟨[], line, rest⟩ := by
  rw [takeBody]
  simp only [hword, hmark]

end TakeBody

/-- The lines of a block open and close the same number of blocks. -/
theorem takeBody_lines (b : Block) (n : Nat) (rest : List Line) :
    takeBody n (b.lines ++ rest) = (takeBody n rest).map (Body.prepend b.lines) := by
  induction b generalizing n rest with
  | done =>
      rw [Block.lines, List.nil_append]
      cases takeBody n rest <;> rfl
  | plain line next ih =>
      rw [Block.lines, List.cons_append, takeBody_neutral n _ line.head line.mark, ih,
        Body.prepend_prepend, List.singleton_append]
  | loop head body close next ihBody ihNext =>
      rw [Block.lines, List.cons_append, List.append_assoc, List.cons_append,
        takeBody_opener n _ head.head (Mark.ofWord_name .loop), ihBody,
        takeBody_closer_succ n _ close.head (Mark.ofWord_name .close), ihNext,
        Body.prepend_prepend, Body.prepend_prepend, Body.prepend_prepend]
      simp only [List.append_assoc, List.cons_append, List.nil_append]
  | cond head yes close next ihYes ihNext =>
      rw [Block.lines, List.cons_append, List.append_assoc, List.cons_append,
        takeBody_opener n _ head.head (Mark.ofWord_name .cond), ihYes,
        takeBody_closer_succ n _ close.head (Mark.ofWord_name .close), ihNext,
        Body.prepend_prepend, Body.prepend_prepend, Body.prepend_prepend]
      simp only [List.append_assoc, List.cons_append, List.nil_append]
  | branch head yes otherwise no close next ihYes ihNo ihNext =>
      rw [Block.lines, List.cons_append, List.append_assoc, List.cons_append, List.append_assoc,
        List.cons_append, takeBody_opener n _ head.head (Mark.ofWord_name .cond), ihYes,
        takeBody_neutral _ _ otherwise.head (Mark.ofWord_name .otherwise), ihNo,
        takeBody_closer_succ n _ close.head (Mark.ofWord_name .close), ihNext,
        Body.prepend_prepend, Body.prepend_prepend, Body.prepend_prepend, Body.prepend_prepend,
        Body.prepend_prepend]
      simp only [List.append_assoc, List.cons_append, List.nil_append]
  | leave line next ih =>
      rw [Block.lines, List.cons_append,
        takeBody_neutral n _ line.head (Mark.ofWord_name .leave), ih, Body.prepend_prepend,
        List.singleton_append]
  | exit line next ih =>
      rw [Block.lines, List.cons_append,
        takeBody_neutral n _ line.head (Mark.ofWord_name .exit), ih, Body.prepend_prepend,
        List.singleton_append]

/-- A body is collected up to the line that closes it. -/
theorem takeBody_block (b : Block) (close : Headed .close) (rest : List Line) :
    takeBody 0 (b.lines ++ close.toLine :: rest) = .ok ⟨b.lines, close.toLine, rest⟩ := by
  rw [takeBody_lines, takeBody_closer_zero _ close.head (Mark.ofWord_name .close)]
  simp [Except.map, Body.prepend]

/-! ## Steps at a line -/

variable {σ ω : Type} [Host σ] [Sink ω] {settings : Settings} {callers : List Activation}

/-- A step that reads a line does what the line says, or skips it. -/
theorem step_of_line {a a₁ : Activation}
    (hfetch : ∀ input, a.fetch input = (.line line, a₁, input)) (s : Session σ ω) :
    step settings (a :: callers) s =
      settle (a :: callers)
        (located a₁.source (some line.number)
          (match a₁.omission with
            | some o => omitLine a₁ o line
            | none => executeLine settings (countdown? none callers) a₁ line) >>=
          follow none callers) s := by
  refine settle_congr ?_
  have hadvance : (advance settings (countdown? none callers) a : Act σ ω Move).exec s =
      (located a₁.source (some line.number)
        (match a₁.omission with
          | some o => omitLine a₁ o line
          | none => executeLine settings (countdown? none callers) a₁ line)).exec s := by
    rw [advance, Act.exec_bind_of_ok (Act.exec_get s), hfetch]
    exact Act.exec_bind_of_ok (Act.exec_set s s)
  rw [turn, Act.exec_bind, Act.exec_bind, hadvance]

/-- A step that reads a line and splits it executes its words. -/
theorem step_of_words {a a₁ b : Activation} {words : List String}
    {s s₁ : Session σ ω} (hfetch : ∀ input, a.fetch input = (.line line, a₁, input))
    (homit : a₁.omission = none)
    (hsplit : (Expansion.split settings.shell line.text (some line.number)).exec s =
      (.ok words, s₁)) (hwords : words ≠ [])
    (hdispatch : ∃ s', (dispatch settings (countdown? none callers) a₁ words
      (some line.number)).exec s₁ = (.ok (.next b), s')) :
    ∃ s', step settings (a :: callers) s = (.running (b :: callers), s') := by
  obtain ⟨s', hdispatch⟩ := hdispatch
  have hline : (executeLine settings (countdown? none callers) a₁ line).exec s =
      (.ok (.next b), s') := by
    rw [executeLine, Act.exec_bind_of_ok hsplit, if_neg (by simpa using hwords)]
    exact hdispatch
  refine ⟨s', ?_⟩
  rw [step_of_line hfetch, homit]
  exact settle_bind_of_ok (exec_located_of_ok hline)

/-- A step that reads a line of a branch that is skipped. -/
theorem step_of_omission {a a₁ b : Activation} {s : Session σ ω}
    (hfetch : ∀ input, a.fetch input = (.line line, a₁, input)) (homit : a₁.omission = some o)
    (hline : ∃ s', (omitLine a₁ o line).exec s = (.ok (.next b), s')) :
    ∃ s', step settings (a :: callers) s = (.running (b :: callers), s') := by
  obtain ⟨s', hline⟩ := hline
  refine ⟨s', ?_⟩
  rw [step_of_line hfetch, homit]
  exact settle_bind_of_ok (exec_located_of_ok hline)

/-- A step at the end of a loop body ends the iteration. -/
theorem step_of_body_end {a a₁ : Activation} {replay : Replay} {outer : List Replay}
    (hfetch : ∀ input, a.fetch input = (.finished, a₁, input))
    (hreplays : a₁.replays = replay :: outer) (s : Session σ ω) :
    step settings (a :: callers) s =
      settle (a :: callers)
        (endIteration (countdown? none callers) a₁ replay outer >>= follow none callers) s := by
  refine settle_congr ?_
  rw [turn, advance]
  simp only [bind_assoc, Act.exec_bind, Act.exec_get, hfetch, Act.exec_set, hreplays]

/-- A step at the end of a script checks that all blocks were left. -/
theorem step_of_script_end {a a₁ : Activation}
    (hfetch : ∀ input, a.fetch input = (.finished, a₁, input)) (hreplays : a₁.replays = [])
    (s : Session σ ω) :
    step settings (a :: callers) s =
      settle (a :: callers) (finish a₁ >>= follow none callers) s := by
  refine settle_congr ?_
  rw [turn, advance]
  simp only [bind_assoc, Act.exec_bind, Act.exec_get, hfetch, Act.exec_set, hreplays]

/-! ## Skipping -/

section Omit

omit [Host σ] [Sink ω]

variable (a : Activation) (s : Session σ ω)

theorem omitLine_otherwise (hword : Word.firstWord line.text = .ok (some Verb.otherwise.name))
    (hn : o.nesting = 0) (hseen : o.elseSeen = false) (hheight : a.height = o.height) :
    (omitLine a o line).exec s =
      (.ok (.next { a.markElse with omission := none }),
        { s with journal := .omitFinished line.number Verb.otherwise.name :: s.journal }) := by
  rw [omitLine, hword, Act.exec_bind_of_ok (Act.exec_lift_ok _ _ _)]
  have hmark : Mark.ofWord (some Verb.otherwise.name) = .neutral := Mark.ofWord_name .otherwise
  have hword' : isWord .otherwise (some Verb.otherwise.name) = true := by decide
  simp only [hmark, hn, hword', hseen, hheight, if_true, Bool.false_eq_true, if_false,
    Act.exec_bind_of_ok (Act.exec_note _ _), Act.exec_pure]

variable (hword : Word.firstWord line.text = .ok word)

include hword

theorem omitLine_opener (hmark : Mark.ofWord word = .opener) :
    (omitLine a o line).exec s =
      (.ok (.next { a with omission := some { o with nesting := o.nesting + 1 } }), s) := by
  rw [omitLine, hword, Act.exec_bind_of_ok (Act.exec_lift_ok _ _ _)]
  simp only [hmark, Act.exec_pure]

theorem omitLine_closer {n : Nat} (hmark : Mark.ofWord word = .closer) (hn : o.nesting = n + 1) :
    (omitLine a o line).exec s =
      (.ok (.next { a with omission := some { o with nesting := n } }), s) := by
  rw [omitLine, hword, Act.exec_bind_of_ok (Act.exec_lift_ok _ _ _)]
  simp only [hmark, hn, Act.exec_pure]

theorem omitLine_neutral (hmark : Mark.ofWord word = .neutral)
    (helse : o.nesting = 0 → word ≠ some Verb.otherwise.name) :
    (omitLine a o line).exec s = (.ok (.next a), s) := by
  rw [omitLine, hword, Act.exec_bind_of_ok (Act.exec_lift_ok _ _ _)]
  cases hn : o.nesting with
  | zero =>
      have hword' : isWord .otherwise word = false := beq_eq_false_iff_ne.mpr (helse hn)
      simp [hmark, hword']
  | succ n => simp [hmark]

theorem omitLine_close (hmark : Mark.ofWord word = .closer) (hn : o.nesting = 0) :
    (omitLine a o line).exec s =
      (.ok (.next { a.pop with omission := none }),
        { s with journal := .omitFinished line.number Verb.close.name :: s.journal }) := by
  rw [omitLine, hword, Act.exec_bind_of_ok (Act.exec_lift_ok _ _ _)]
  simp only [hmark, hn, Act.exec_bind_of_ok (Act.exec_note _ _), Act.exec_pure]

end Omit

/-- The activation further on in its source, with another state of skipping. -/
def Activation.skipping (a : Activation) (o : Omission) (feed : Feed) (cursor : Nat) :
    Activation :=
  { a.seek feed cursor with omission := some o }

theorem Activation.skipping_skipping (a : Activation) (o o' : Omission) (feed feed' : Feed)
    (cursor cursor' : Nat) :
    (a.skipping o feed cursor).skipping o' feed' cursor' = a.skipping o' feed' cursor' := by
  unfold skipping seek
  cases a.replays <;> simp [moveCursor_moveCursor]

theorem Activation.skipping_of_omission {a : Activation}
    (h : a.omission = some o) (feed : Feed) (cursor : Nat) :
    a.skipping o feed cursor = a.seek feed cursor := by
  rw [skipping, ← h, ← a.omission_seek feed cursor]

/-- Skipping gets to lines further on, in another state of skipping, and does nothing else. -/
def SkipsTo (settings : Settings) (callers : List Activation) (s : Session σ ω) (a : Activation)
    (o : Omission) (lines : List Line) (fault : Option DecodeFault) : Prop :=
  ∃ feed cursor, Awaits (a.skipping o feed cursor) lines fault ∧
    Leads settings (.running (a :: callers), s)
      (.running (a.skipping o feed cursor :: callers), s)

namespace SkipsTo

variable {a : Activation} {o o' : Omission} {lines rest : List Line}
  {fault : Option DecodeFault} {s : Session σ ω}

theorem refl (haligned : Aligned a.frames a.replays) (homit : a.omission = some o)
    (hawaits : Awaits a lines fault) : SkipsTo settings callers s a o lines fault := by
  obtain ⟨feed, cursor, hself⟩ := Activation.exists_seek_self haligned
  refine ⟨feed, cursor, ?_⟩
  rw [Activation.skipping_of_omission homit, hself]
  exact ⟨hawaits, .refl _⟩

theorem trans (haligned : Aligned a.frames a.replays)
    (h : SkipsTo settings callers s a o lines fault)
    (hnext : ∀ a' : Activation, Aligned a'.frames a'.replays → a'.omission = some o →
      Awaits a' lines fault → SkipsTo settings callers s a' o' rest fault) :
    SkipsTo settings callers s a o' rest fault := by
  obtain ⟨feed, cursor, hawaits, hleads⟩ := h
  obtain ⟨feed', cursor', hawaits', hleads'⟩ :=
    hnext (a.skipping o feed cursor) (Activation.aligned_seek feed cursor haligned) rfl hawaits
  rw [Activation.skipping_skipping] at hawaits' hleads'
  exact ⟨feed', cursor', hawaits', hleads.trans hleads'⟩

/-- One line is skipped. -/
theorem of_line (haligned : Aligned a.frames a.replays) (homit : a.omission = some o)
    (hawaits : Awaits a (line :: rest) fault)
    (hskip : ∀ (a : Activation) (s : Session σ ω), a.omission = some o →
      (omitLine a o line).exec s = (.ok (.next { a with omission := some o' }), s)) :
    SkipsTo settings callers s a o' rest fault := by
  obtain ⟨feed, cursor, hfetch, hafter⟩ := hawaits.fetch haligned
  have homit' : (a.seek feed cursor).omission = some o := by rw [Activation.omission_seek, homit]
  refine ⟨feed, cursor, ⟨hafter.own, hafter.upcoming⟩, .head ?_⟩
  simp only [step_of_line hfetch, homit', settle_bind_of_ok (exec_located_of_ok (hskip _ s homit'))]
  exact .refl _

theorem opener {verb : Verb} (head : Headed verb) (hopens : verb.opensBlock = true)
    (haligned : Aligned a.frames a.replays) (homit : a.omission = some o)
    (hawaits : Awaits a (head.toLine :: rest) fault) :
    SkipsTo settings callers s a { o with nesting := o.nesting + 1 } rest fault := by
  refine of_line haligned homit hawaits fun a s _ => omitLine_opener a s head.head ?_
  cases verb <;> first | rfl | cases hopens

theorem closer (close : Headed .close) (haligned : Aligned a.frames a.replays)
    (homit : a.omission = some { o with nesting := o.nesting + 1 })
    (hawaits : Awaits a (close.toLine :: rest) fault) :
    SkipsTo settings callers s a o rest fault :=
  of_line haligned homit hawaits fun a s _ =>
    omitLine_closer a s close.head (Mark.ofWord_name .close) rfl

theorem neutral (hword : Word.firstWord line.text = .ok word) (hmark : Mark.ofWord word = .neutral)
    (helse : o.nesting = 0 → word ≠ some Verb.otherwise.name)
    (haligned : Aligned a.frames a.replays) (homit : a.omission = some o)
    (hawaits : Awaits a (line :: rest) fault) :
    SkipsTo settings callers s a o rest fault := by
  refine of_line haligned homit hawaits fun a s homit' => ?_
  rw [omitLine_neutral a s hword hmark helse, ← homit']

end SkipsTo

/-- A block that is not taken is skipped as a whole, whatever the nesting. -/
theorem skip_block (b : Block) {a : Activation} {rest : List Line}
    {fault : Option DecodeFault} {s : Session σ ω} (haligned : Aligned a.frames a.replays)
    (homit : a.omission = some o) (hawaits : Awaits a (b.lines ++ rest) fault) :
    SkipsTo settings callers s a o rest fault := by
  induction b generalizing a o rest with
  | done => exact .refl haligned homit hawaits
  | plain line next ih =>
      refine (SkipsTo.neutral line.head line.mark (fun _ => line.plain .otherwise rfl) haligned
        homit hawaits).trans haligned fun a₁ h₁ o₁ w₁ => ?_
      exact ih h₁ o₁ w₁
  | loop head body close next ihBody ihNext =>
      rw [Block.lines, List.cons_append, List.append_assoc, List.cons_append] at hawaits
      refine (SkipsTo.opener head rfl haligned homit hawaits).trans haligned fun a₁ h₁ o₁ w₁ => ?_
      refine (ihBody h₁ o₁ w₁).trans h₁ fun a₂ h₂ o₂ w₂ => ?_
      refine (SkipsTo.closer close h₂ o₂ w₂).trans h₂ fun a₃ h₃ o₃ w₃ => ?_
      exact ihNext h₃ o₃ w₃
  | cond head yes close next ihYes ihNext =>
      rw [Block.lines, List.cons_append, List.append_assoc, List.cons_append] at hawaits
      refine (SkipsTo.opener head rfl haligned homit hawaits).trans haligned fun a₁ h₁ o₁ w₁ => ?_
      refine (ihYes h₁ o₁ w₁).trans h₁ fun a₂ h₂ o₂ w₂ => ?_
      refine (SkipsTo.closer close h₂ o₂ w₂).trans h₂ fun a₃ h₃ o₃ w₃ => ?_
      exact ihNext h₃ o₃ w₃
  | branch head yes otherwise no close next ihYes ihNo ihNext =>
      rw [Block.lines, List.cons_append, List.append_assoc, List.cons_append, List.append_assoc,
        List.cons_append] at hawaits
      refine (SkipsTo.opener head rfl haligned homit hawaits).trans haligned fun a₁ h₁ o₁ w₁ => ?_
      refine (ihYes h₁ o₁ w₁).trans h₁ fun a₂ h₂ o₂ w₂ => ?_
      refine (SkipsTo.neutral otherwise.head (Mark.ofWord_name .otherwise)
        (fun hn => absurd hn (Nat.succ_ne_zero _)) h₂ o₂ w₂).trans h₂ fun a₃ h₃ o₃ w₃ => ?_
      refine (ihNo h₃ o₃ w₃).trans h₃ fun a₄ h₄ o₄ w₄ => ?_
      refine (SkipsTo.closer close h₄ o₄ w₄).trans h₄ fun a₅ h₅ o₅ w₅ => ?_
      exact ihNext h₅ o₅ w₅
  | leave line next ih =>
      refine (SkipsTo.neutral line.head (Mark.ofWord_name .leave) (fun _ => by decide) haligned
        homit hawaits).trans haligned fun a₁ h₁ o₁ w₁ => ?_
      exact ih h₁ o₁ w₁
  | exit line next ih =>
      refine (SkipsTo.neutral line.head (Mark.ofWord_name .exit) (fun _ => by decide) haligned
        homit hawaits).trans haligned fun a₁ h₁ o₁ w₁ => ?_
      exact ih h₁ o₁ w₁

end InputScript.Machine
