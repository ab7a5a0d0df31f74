import InputScript.Proofs.FirstWord
import InputScript.Proofs.Matching

/-!
# Loop bodies and the blocks inside them

A loop body is collected by the first words of its lines, before any of them is executed.  Executing
it enters and leaves blocks by what the lines turn out to be when they are split.  At the end of the
body the frame on top of the stack is taken for that of the loop.  This is right as long as every
block that was entered in the body has been left by then.

The rest of a body says how many blocks it closes (`Closes`).  The invariant is that the blocks that
are open inside of a loop, those of skipped lines included, are at most so many (`Balanced`).  They
may be fewer: an `end` that only splitting reveals leaves a block that the body closes once more, and
this later `end` is then refused.

The shell is not part of the machine.  It is assumed to leave the first word of a line in front; for
lines that are split in process this is a fact about words.

## Main results

* `Advanced.sound` — whatever a script does with its next line, its blocks stay in step with its
  loop bodies, and it leaves no loops of its caller.
-/

namespace InputScript.Machine

open Device (Sink)
open Script (Line RawLine Scratch)

variable {frames : List Frame} {line : Line} {cursor : Nat}

/-! ## Levels -/

/-- The number of open blocks after a line, if it closes none that is not open. -/
def Mark.level : Mark → Nat → Option Nat
  | .opener, n => some (n + 1)
  | .closer, 0 => none
  | .closer, n + 1 => some n
  | .neutral, n => some n

/-- A line changes the number of open blocks by the same amount, however many are open. -/
theorem Mark.level_sub {mark : Mark} {n k m l : Nat} (hn : mark.level n = some k)
    (hm : mark.level m = some l) : k + m = l + n := by
  cases mark with
  | opener =>
      simp only [level, Option.some.injEq] at hn hm
      omega
  | neutral =>
      simp only [level, Option.some.injEq] at hn hm
      omega
  | closer =>
      cases n with
      | zero => cases hn
      | succ n =>
          cases m with
          | zero => cases hm
          | succ m =>
              simp only [level, Option.some.injEq] at hn hm
              omega

/-- A body ends at the first line that closes more blocks than are open. -/
theorem takeBody_cons {n : Nat} {rest : List Line} {body : Body}
    (h : takeBody n (line :: rest) = .ok body) :
    ∃ word, Word.firstWord line.text = .ok word ∧
      ((n = 0 ∧ Mark.ofWord word = .closer ∧ body = ⟨[], line, rest⟩) ∨
        ∃ k inner, (Mark.ofWord word).level n = some k ∧ takeBody k rest = .ok inner ∧
          body = { inner with lines := line :: inner.lines }) := by
  rw [takeBody] at h
  split at h
  · cases h
  · next word hword =>
      refine ⟨word, hword, ?_⟩
      dsimp only at h
      split at h
      · next hmark =>
          cases h
          exact .inl ⟨rfl, hmark, rfl⟩
      all_goals
        next hmark =>
          right
          split at h
          · cases h
          · next inner hinner =>
              cases h
              exact ⟨_, inner, by rw [hmark]; rfl, hinner, rfl⟩

/-- The lines close `n` blocks and the ones that they open themselves, and no other. -/
def Closes : Nat → List Line → Prop
  | n, [] => n = 0
  | n, line :: rest =>
    ∃ word k, Word.firstWord line.text = .ok word ∧ (Mark.ofWord word).level n = some k ∧
      Closes k rest

variable {lines : List Line}

/-- A body closes what it opens. -/
theorem closes_of_takeBody {n : Nat} {body : Body} (h : takeBody n lines = .ok body) :
    Closes n body.lines := by
  induction lines generalizing n body with
  | nil => cases h
  | cons line rest ih =>
      obtain ⟨word, hword, ⟨hzero, -, rfl⟩ | ⟨k, inner, hlevel, hinner, rfl⟩⟩ := takeBody_cons h
      · exact hzero
      · exact ⟨word, k, hword, hlevel, ih hinner⟩

/-- What follows a body closes as many blocks as before, but for those that were open in the body
and the one that it is the body of. -/
theorem closes_rest_of_takeBody {m n : Nat} {body : Body} (h : takeBody n lines = .ok body)
    (hcloses : Closes m lines) :
    ∃ left, m = left + n + 1 ∧ Closes left body.rest := by
  induction lines generalizing m n body with
  | nil => cases h
  | cons line rest ih =>
      obtain ⟨word', l, hword', hlevel', hrest⟩ := hcloses
      obtain ⟨word, hword, hcase⟩ := takeBody_cons h
      obtain rfl : word = word' := Except.ok.inj (hword.symm.trans hword')
      rcases hcase with ⟨rfl, hmark, rfl⟩ | ⟨k, inner, hlevel, hinner, rfl⟩
      · rw [hmark] at hlevel'
        cases m with
        | zero => cases hlevel'
        | succ m =>
            cases hlevel'
            exact ⟨l, rfl, hrest⟩
      · obtain ⟨left, hl, hleft⟩ := ih hinner hrest
        have hsame := Mark.level_sub hlevel hlevel'
        exact ⟨left, by omega, hleft⟩

/-! ## Frames in step with the bodies -/

/-- The blocks inside of each loop, and `n` more in the innermost one, are among those that the rest
of its body closes; and each body as a whole closes what it opens. -/
def Balanced : Nat → List Frame → Prop
  | _, [] => True
  | n, .cond _ :: frames => Balanced (n + 1) frames
  | n, .loop f :: frames =>
    (∃ m, n ≤ m ∧ Closes m f.body.rest) ∧ Closes 0 f.body.lines ∧ Balanced 0 frames

namespace Balanced

variable {n k : Nat}

theorem mono (h : Balanced n frames) (hle : k ≤ n) : Balanced k frames := by
  induction frames generalizing n k with
  | nil => trivial
  | cons frame frames ih =>
      cases frame with
      | cond c => exact ih h (Nat.succ_le_succ hle)
      | loop f =>
          obtain ⟨⟨m, hm, hrest⟩, houter⟩ := h
          exact ⟨⟨m, Nat.le_trans hle hm, hrest⟩, houter⟩

/-- Outside of all loops any number of blocks may be open. -/
theorem of_no_loop (h : loopsOf frames = []) (n : Nat) : Balanced n frames := by
  induction frames generalizing n with
  | nil => trivial
  | cons frame frames ih =>
      cases frame with
      | cond c => exact ih h (n + 1)
      | loop f => cases h

theorem outside (h : Balanced n frames) : Balanced 0 (outsideLoop frames) := by
  induction frames generalizing n with
  | nil => trivial
  | cons frame frames ih =>
      cases frame with
      | cond c => exact ih h
      | loop f => exact h.2.2

/-- At the end of its body nothing is open inside of a loop. -/
theorem at_end {f : LoopFrame} {fs : List LoopFrame} (h : Balanced n frames)
    (hloops : loopsOf frames = f :: fs) (hrest : f.body.rest = []) :
    n = 0 ∧ Closes 0 f.body.lines ∧ ∃ outer, frames = .loop f :: outer ∧ Balanced 0 outer := by
  induction frames generalizing n with
  | nil => cases hloops
  | cons frame frames ih =>
      cases frame with
      | cond c =>
          have hinner := (ih h hloops).1
          omega
      | loop g =>
          cases hloops
          obtain ⟨⟨m, hm, hcloses⟩, hlines, houter⟩ := h
          rw [hrest] at hcloses
          have hzero : m = 0 := hcloses
          exact ⟨by omega, hlines, frames, rfl, houter⟩

/-- The innermost loop reads on in its body.  If the rest of the body then closes `d` blocks fewer,
there may be `d` fewer open, and so with more. -/
theorem moveCursor (h : Balanced n frames)
    (hmove : ∀ f fs, loopsOf frames = f :: fs → ∀ m, Closes m f.body.rest →
      ∃ l, Closes l ({ f.body with cursor } : Scratch).rest ∧ ∀ i, n + i ≤ m → k + i ≤ l) :
    Balanced k (moveCursor cursor frames) := by
  -- `i` counts the branches between the top of the stack and the loop
  induction frames generalizing n k with
  | nil => trivial
  | cons frame frames ih =>
      cases frame with
      | cond c =>
          refine ih h fun f fs hloops m hcloses => ?_
          obtain ⟨l, hl, hle⟩ := hmove f fs hloops m hcloses
          refine ⟨l, hl, fun i hi => ?_⟩
          have hsucc := hle (i + 1) (by omega)
          omega
      | loop f =>
          obtain ⟨⟨m, hm, hcloses⟩, hlines, houter⟩ := h
          obtain ⟨l, hl, hle⟩ := hmove f _ rfl m hcloses
          exact ⟨⟨l, hle 0 hm, hl⟩, hlines, houter⟩

end Balanced

/-! ## Reading -/

theorem moveCursor_of_no_loop (h : loopsOf frames = []) (cursor : Nat) :
    moveCursor cursor frames = frames := by
  induction frames with
  | nil => rfl
  | cons frame frames ih =>
      cases frame with
      | cond c => rw [moveCursor, ih h]
      | loop f => cases h

theorem eq_cond_of_moveCursor {c : CondFrame} {frames rest : List Frame}
    (h : moveCursor cursor frames = .cond c :: rest) :
    ∃ below, frames = .cond c :: below ∧ moveCursor cursor below = rest := by
  cases frames with
  | nil => cases h
  | cons frame frames =>
      cases frame with
      | cond c' =>
          cases h
          exact ⟨frames, rfl, rfl⟩
      | loop f => cases h

/-- A script has read a line.  Apart from its feed only the cursor of its innermost loop moved, if it
has one; the line is then the next of the body. -/
structure Took (a : Activation) (line : Line) (cursor : Nat) (a₁ : Activation) : Prop where
  frames : a₁.frames = moveCursor cursor a.frames
  replays : a₁.replays = a.replays
  omission : a₁.omission = a.omission
  rest : ∀ f fs, loopsOf a.frames = f :: fs →
    f.body.rest = line :: ({ f.body with cursor } : Scratch).rest

theorem rest_of_advance {body body' : Scratch} (h : body.advance = some (line, body')) :
    body' = { body with cursor := body.cursor + 1 } ∧ body.rest = line :: body'.rest := by
  cases hrest : body.rest with
  | nil =>
      rw [advance_of_rest_nil hrest] at h
      cases h
  | cons next rest =>
      obtain ⟨hadvance, htail⟩ := advance_of_rest hrest
      rw [hadvance] at h
      cases h
      exact ⟨rfl, by rw [htail]⟩

theorem took_of_fetch {a a₁ : Activation} {input input' : List RawLine}
    (h : Aligned a.frames a.replays) (hfetch : a.fetch input = (.line line, a₁, input')) :
    ∃ cursor, Took a line cursor a₁ := by
  cases hr : a.replays with
  | nil =>
      rw [hr] at h
      have hnone := h.loops_eq_nil
      rw [fetch_of_feed hr] at hfetch
      obtain ⟨-, hrest⟩ := Prod.mk.inj hfetch
      obtain ⟨rfl, -⟩ := Prod.mk.inj hrest
      refine ⟨0, (moveCursor_of_no_loop hnone 0).symm, rfl, rfl, fun f fs hloops => ?_⟩
      rw [hnone] at hloops
      cases hloops
  | cons replay outer =>
      rw [hr] at h
      obtain ⟨f, fs, hloops⟩ := h.exists_loop
      rw [fetch_of_replay hr h hloops] at hfetch
      cases hadvance : f.body.advance with
      | none =>
          rw [hadvance] at hfetch
          cases hfetch
      | some next =>
          obtain ⟨line', body⟩ := next
          rw [hadvance] at hfetch
          cases hfetch
          obtain ⟨rfl, hnext⟩ := rest_of_advance hadvance
          refine ⟨f.body.cursor + 1, replaceLoop_eq_moveCursor hloops _, rfl, rfl, ?_⟩
          intro g gs hloops'
          rw [hloops] at hloops'
          cases hloops'
          exact hnext

/-- Where a script finds no line, its innermost loop has none left. -/
theorem ended_of_fetch {a a₁ : Activation} {input input' : List RawLine}
    (h : Aligned a.frames a.replays) (hfetch : a.fetch input = (.finished, a₁, input')) :
    (a₁.frames = a.frames ∧ a₁.replays = a.replays ∧ a₁.omission = a.omission) ∧
      ∀ f fs, loopsOf a.frames = f :: fs → f.body.rest = [] := by
  cases hr : a.replays with
  | nil =>
      rw [hr] at h
      rw [fetch_of_feed hr] at hfetch
      obtain ⟨-, hrest⟩ := Prod.mk.inj hfetch
      obtain ⟨rfl, -⟩ := Prod.mk.inj hrest
      refine ⟨⟨rfl, hr, rfl⟩, fun f fs hloops => ?_⟩
      rw [h.loops_eq_nil] at hloops
      cases hloops
  | cons replay outer =>
      rw [hr] at h
      obtain ⟨f, fs, hloops⟩ := h.exists_loop
      rw [fetch_of_replay hr h hloops] at hfetch
      cases hrest : f.body.rest with
      | nil =>
          rw [advance_of_rest_nil hrest] at hfetch
          cases hfetch
          refine ⟨⟨rfl, hr, rfl⟩, fun g gs hloops' => ?_⟩
          rw [hloops] at hloops'
          cases hloops'
          exact hrest
      | cons line lines =>
          rw [(advance_of_rest hrest).1] at hfetch
          cases hfetch

/-- Reading a line opens or closes what its first word says. -/
theorem Balanced.read {n k cursor : Nat} (h : Balanced n frames)
    (hrest : ∀ f fs, loopsOf frames = f :: fs →
      f.body.rest = line :: ({ f.body with cursor } : Scratch).rest)
    (hlevel : ∀ word, Word.firstWord line.text = .ok word →
      (Mark.ofWord word).level n = some k) :
    Balanced k (Machine.moveCursor cursor frames) := by
  refine h.moveCursor fun f fs hloops m hcloses => ?_
  rw [hrest f fs hloops] at hcloses
  obtain ⟨word, l, hword, hl, hcloses'⟩ := hcloses
  refine ⟨l, hcloses', fun i hi => ?_⟩
  have hsame := Mark.level_sub (hlevel word hword) hl
  omega

/-! ## First words -/

section Words

variable {σ ω : Type} [Host σ] {words : List String}

/-- If a line goes to the shell, its first word comes back in front. -/
def ShellKeeps (shell : String) (line : Line) (s : Session σ ω) : Prop :=
  ∀ code word words s', Word.command line.text = .ok code → Word.needsShell code = true →
    Word.firstWord line.text = .ok word →
    (Expansion.expand shell code).exec s = (.ok words, s') → words.head? = word

/-- The words of a line begin with its first word.  Only a line whose first word is no verb may be
another word, and this alone, since a comment can be a part of the first word. -/
def Kept (line : Line) (words : List String) : Prop :=
  ∀ word, Word.firstWord line.text = .ok word →
    words.head? = word ∨ (words.length ≤ 1 ∧ ∀ verb : Verb, word ≠ some verb.name)

theorem kept_of_split {shell : String} {number : Option Nat} {s s' : Session σ ω}
    (hshell : ShellKeeps shell line s)
    (h : (Expansion.split shell line.text number).exec s = (.ok words, s')) : Kept line words := by
  intro word hword
  obtain ⟨code, hcommand, ⟨hneeds, hexpand⟩ | ⟨-, htokens, -⟩⟩ := Expansion.split_ok h
  · exact .inl (hshell code word words s' hcommand hneeds hword hexpand)
  · exact Word.head_tokens hcommand hword htokens

/-- A line without characters of the shell is split in process. -/
theorem shellKeeps_of_plain {shell : String} {s : Session σ ω}
    (h : Word.needsShell line.text = false) : ShellKeeps shell line s := by
  intro code word words s' hcommand hneeds
  rw [Word.needsShell_of_command hcommand h] at hneeds
  cases hneeds

/-- A run keeps first words if its first line is split in process and the rest of the run keeps
them. -/
theorem shellKeeps_of_step [Device.Sink ω] {settings : Settings} {a : Activation}
    {callers : List Activation} {s : Session σ ω} {c : Conf σ ω}
    (hplain : ∀ line, (a.fetch s.input).1 = .line line → Word.needsShell line.text = false)
    (hstep : step settings (a :: callers) s = c)
    (hrest : ∀ line activations s', Executes settings c line activations s' →
      ShellKeeps settings.shell line s') :
    ∀ line activations s', Executes settings (.running (a :: callers), s) line activations s' →
      ShellKeeps settings.shell line s' := by
  intro line activations s' h
  rcases h.cases_head with ⟨_, _, hfetch, -⟩ | hlater
  · exact shellKeeps_of_plain (hplain line (congrArg Prod.fst hfetch))
  · rw [hstep] at hlater
    exact hrest line activations s' hlater

/-- A line that is split into a verb and more is collected by this verb; one that is a verb alone
may be collected as if it were none. -/
theorem Kept.mark {verb : Verb} {args : List String} (h : Kept line (verb.name :: args))
    {word : Option String} (hword : Word.firstWord line.text = .ok word) :
    Mark.ofWord word = Mark.ofWord (some verb.name) ∨
      (args = [] ∧ Mark.ofWord word = .neutral) := by
  rcases h word hword with hhead | ⟨hlength, hforeign⟩
  · exact .inl (congrArg Mark.ofWord hhead.symm)
  · refine .inr ⟨?_, Mark.ofWord_plain fun verb _ => hforeign verb⟩
    cases args with
    | nil => rfl
    | cons arg args =>
        simp only [List.length_cons] at hlength
        omega

theorem Kept.mark_nil (h : Kept line []) {word : Option String}
    (hword : Word.firstWord line.text = .ok word) : Mark.ofWord word = .neutral := by
  rcases h word hword with hhead | ⟨-, hforeign⟩
  · rw [← hhead]
    rfl
  · exact Mark.ofWord_plain fun verb _ => hforeign verb

end Words

/-! ## Scripts -/

/-- The blocks of a script are in step with its loop bodies.  While lines are skipped the blocks that
were opened among them count as open, and the branch that is skipped is on top of the stack. -/
structure Sound (a : Activation) : Prop where
  aligned : Aligned a.frames a.replays
  balanced : Balanced (a.omission.elim 0 Omission.nesting) a.frames
  branch : a.omission.isSome = true → ∃ c frames, a.frames = .cond c :: frames

variable {σ ω : Type} {a a₁ : Activation} {s s' : Session σ ω} {m : Move}

theorem Took.aligned (ht : Took a line cursor a₁) (h : Sound a) :
    Aligned a₁.frames a₁.replays := by
  rw [ht.frames, ht.replays]
  exact h.aligned.moveCursor cursor

/-- While lines are skipped the branch that they belong to is on top of the stack. -/
theorem Took.branch (ht : Took a line cursor a₁) (h : Sound a) {o : Omission}
    (homit : a₁.omission = some o) :
    ∃ c frames, a.frames = .cond c :: frames ∧
      a₁.frames = .cond c :: moveCursor cursor frames := by
  obtain ⟨c, frames, hframes⟩ := h.branch (by rw [← ht.omission, homit]; rfl)
  refine ⟨c, frames, hframes, ?_⟩
  rw [ht.frames, hframes]
  rfl

theorem Took.balanced_before (ht : Took a line cursor a₁) (h : Sound a)
    (homit : a₁.omission = none) : Balanced 0 a.frames := by
  have hlevel := h.balanced
  rwa [← ht.omission, homit] at hlevel

/-- Reading a line that opens nothing leaves room for one block less. -/
theorem Took.below (ht : Took a line cursor a₁) {c : CondFrame}
    (hframes : a.frames = .cond c :: frames) (h : Balanced 0 a.frames)
    (hmark : ∀ word, Word.firstWord line.text = .ok word → Mark.ofWord word ≠ .opener) :
    Balanced 0 (moveCursor cursor frames) := by
  rw [hframes] at h
  have hrest : ∀ f fs, loopsOf frames = f :: fs →
      f.body.rest = line :: ({ f.body with cursor } : Scratch).rest := by
    intro f fs hloops
    exact ht.rest f fs (by rw [hframes]; exact hloops)
  cases hword : Word.firstWord line.text with
  | error e => exact Balanced.read (n := 1) h hrest fun word hok => by rw [hword] at hok; cases hok
  | ok word =>
      cases hcase : Mark.ofWord word with
      | opener => exact absurd hcase (hmark word hword)
      | closer =>
          refine Balanced.read (n := 1) h hrest fun word' hword' => ?_
          rw [← Except.ok.inj (hword.symm.trans hword'), hcase]
          rfl
      | neutral =>
          refine (Balanced.read (n := 1) (k := 1) h hrest fun word' hword' => ?_).mono (Nat.zero_le 1)
          rw [← Except.ok.inj (hword.symm.trans hword'), hcase]
          rfl

theorem Activation.frames_markElse {c : CondFrame} (h : a.frames = .cond c :: frames) :
    a.markElse.frames = .cond { c with elseSeen := true } :: frames := by
  unfold markElse
  rw [h]

theorem Omitted.sound {o : Omission} (h : Sound a) (ht : Took a line cursor a₁)
    (homit : a₁.omission = some o) (hline : Omitted a₁ o line s m s') : m.All Sound := by
  have hskips : a.omission = some o := ht.omission.symm.trans homit
  obtain ⟨c, frames, hframes, htop⟩ := ht.branch h homit
  have hbalanced : Balanced o.nesting a.frames := by
    have hlevel := h.balanced
    rwa [hskips] at hlevel
  have haligned := ht.aligned h
  have hread : ∀ {word k}, Word.firstWord line.text = .ok word →
      (Mark.ofWord word).level o.nesting = some k → Balanced k a₁.frames := by
    intro word k hword hlevel
    rw [ht.frames]
    refine hbalanced.read ht.rest fun word' hword' => ?_
    rw [← Except.ok.inj (hword.symm.trans hword')]
    exact hlevel
  cases hline with
  | opener hword hmark =>
      exact ⟨haligned, hread hword (by rw [hmark]; rfl), fun _ => ⟨c, _, htop⟩⟩
  | inner hword hmark hnesting =>
      exact ⟨haligned, hread hword (by rw [hmark, hnesting]; rfl), fun _ => ⟨c, _, htop⟩⟩
  | neutral hword hmark =>
      refine ⟨haligned, ?_, fun _ => ⟨c, _, htop⟩⟩
      rw [homit]
      exact hread hword (by rw [hmark]; rfl)
  | close hword hmark hnesting =>
      rw [hnesting] at hbalanced
      have hbelow := ht.below hframes hbalanced fun word' hword' => by
        rw [← Except.ok.inj (hword.symm.trans hword'), hmark]
        exact Mark.noConfusion
      rw [htop] at haligned
      cases haligned with
      | cond haligned =>
          have hpop : a₁.pop.frames = moveCursor cursor frames := by
            rw [Activation.pop, htop]
            rfl
          refine ⟨?_, ?_, fun hsome => nomatch hsome⟩
          · rw [hpop]
            exact haligned
          · rw [hpop]
            exact hbelow
  | otherwise hword hnesting hseen =>
      have hkept : Balanced 0 a₁.frames := hread hword (by rw [hnesting]; rfl)
      have hmarked := Activation.frames_markElse htop
      refine ⟨?_, ?_, fun hsome => nomatch hsome⟩
      · split
        · rw [hmarked, a₁.replays_markElse]
          exact haligned.setCond htop
        · exact haligned
      · split
        · rw [hmarked]
          rw [htop] at hkept
          exact hkept
        · exact hkept

theorem Sound.congr {b : Activation} (h : Sound a) (hframes : b.frames = a.frames)
    (hreplays : b.replays = a.replays) (homit : b.omission = a.omission) : Sound b := by
  refine ⟨?_, ?_, ?_⟩
  · rw [hframes, hreplays]
    exact h.aligned
  · rw [hframes, homit]
    exact h.balanced
  · rw [hframes, homit]
    exact h.branch

/-- A script that skips nothing is sound by its stacks. -/
theorem Sound.of_executing (haligned : Aligned a.frames a.replays) (hbalanced : Balanced 0 a.frames)
    (homit : a.omission = none) : Sound a := by
  refine ⟨haligned, ?_, fun hsome => ?_⟩
  · rw [homit]
    exact hbalanced
  · rw [homit] at hsome
    cases hsome

variable [Host σ] {inherited : Option Countdown}

/-- At the end of its body a loop is on top of the stack, and nothing is skipped. -/
theorem Sound.at_end {replay : Replay} {outer : List Replay} (h : Sound a)
    (hrest : ∀ f fs, loopsOf a.frames = f :: fs → f.body.rest = [])
    (hreplays : a.replays = replay :: outer) :
    a.omission = none ∧ ∃ f frames, a.frames = .loop f :: frames ∧
      a.loopAt? replay.base = some f ∧ Closes 0 f.body.lines ∧ Balanced 0 frames ∧
      Aligned frames outer := by
  have haligned : Aligned a.frames (replay :: outer) := hreplays ▸ h.aligned
  obtain ⟨f, fs, hloops⟩ := haligned.exists_loop
  obtain ⟨-, hlines, frames, hframes, houter⟩ := h.balanced.at_end hloops (hrest f fs hloops)
  have hat : a.loopAt? replay.base = some f := by
    rw [haligned.loopAt?_eq, a.loops_eq, hloops]
    rfl
  have hbelow : Aligned frames outer := by
    rw [hframes] at haligned
    cases haligned with
    | loop hbelow => exact hbelow
  refine ⟨?_, f, frames, hframes, hat, hlines, houter, hbelow⟩
  cases hcase : a.omission with
  | none => rfl
  | some o =>
      obtain ⟨c, below, htop⟩ := h.branch (by rw [hcase]; rfl)
      rw [hframes] at htop
      cases htop

theorem Iterated.sound {replay : Replay} {outer : List Replay} (h : Sound a)
    (hrest : ∀ f fs, loopsOf a.frames = f :: fs → f.body.rest = [])
    (hreplays : a.replays = replay :: outer) (hend : Iterated inherited a replay outer s m s') :
    m.All Sound := by
  have haligned : Aligned a.frames (replay :: outer) := hreplays ▸ h.aligned
  obtain ⟨homit, f, frames, hframes, hat, hlines, houter, hbelow⟩ := h.at_end hrest hreplays
  cases hend with
  | gone hgone =>
      rw [hat] at hgone
      cases hgone
  | finished hframe _ _ ha' _ =>
      rw [haligned.setLoopAt_eq] at ha'
      subst ha'
      refine Sound.of_executing ?_ ?_ homit
      · rw [hframes]
        exact hbelow
      · rw [hframes]
        exact houter
  | continued hframe _ _ ha' _ =>
      rw [hat] at hframe
      cases hframe
      rw [haligned.setLoopAt_eq] at ha'
      subst ha'
      have hreplaced := haligned.replace
        { f with remaining := f.remaining.map (· - 1), body := f.body.rewind }
        (replay.iterations + 1)
      refine Sound.of_executing hreplaced ?_ homit
      rw [hframes]
      exact ⟨⟨0, Nat.le_refl 0, hlines⟩, hlines, houter⟩

/-- Whatever loops are left, the stacks stay in step. -/
theorem Sound.leaveLoops {levels left : Nat} {a' : Activation} (h : Sound a)
    (hexec : (leaveLoops inherited a levels a.replays).exec s = (.ok (left, a'), s')) :
    Sound a' := by
  refine leaveLoops_keeps (fun {b replay outer} hreplays hb => ?_) hexec h
  have haligned : Aligned b.frames (replay :: outer) := hreplays ▸ hb.aligned
  rw [haligned.breakLoop_eq]
  exact .of_executing haligned.outside hb.balanced.outside rfl

/-- Leaving no more loops than are replayed leaves just these. -/
theorem loops_leaveLoops {levels left : Nat} {replays : List Replay} {a' : Activation}
    (haligned : Aligned a.frames replays) (hle : levels ≤ replays.length)
    (h : (Machine.leaveLoops inherited a levels replays).exec s = (.ok (left, a'), s')) :
    left = 0 ∧ a'.loops = a.loops.drop levels := by
  induction replays generalizing a levels s with
  | nil =>
      obtain rfl : levels = 0 := Nat.le_zero.mp hle
      cases h
      exact ⟨rfl, rfl⟩
  | cons replay replays ih =>
      cases levels with
      | zero =>
          cases h
          exact ⟨rfl, rfl⟩
      | succ levels =>
          rw [leaveLoops_cons haligned] at h
          obtain ⟨⟨⟩, s₁, -, h₁⟩ := Act.exec_bind_eq_ok.mp h
          obtain ⟨⟨⟩, s₂, -, h₂⟩ := Act.exec_bind_eq_ok.mp h₁
          obtain ⟨hleft, hloops⟩ := ih haligned.outside (Nat.le_of_succ_le_succ hle) h₂
          obtain ⟨f, fs, hall⟩ := haligned.exists_loop
          have houtside : a.outside.loops = fs := loopsOf_eq_cons hall
          refine ⟨hleft, ?_⟩
          rw [hloops, houtside, a.loops_eq, hall, List.drop_succ_cons]

/-! ## Commands -/

/-- A script is about to execute a command.  It has room for the block that the command opens, and
room for one block less if the command closes one; a `loop` without a limit is not executed. -/
structure Ready (a : Activation) (inv : Invocation) : Prop where
  aligned : Aligned a.frames a.replays
  executes : a.omission = none
  cond : inv.verb = .cond → Balanced 1 a.frames
  loop : inv.verb = .loop → Balanced 1 a.frames ∨ (inv.args = [] ∧ inv.options = [])
  close : inv.verb = .close → ∀ c frames, a.frames = .cond c :: frames → Balanced 0 frames
  other : inv.verb ≠ .close → Balanced 0 a.frames

/-- Outside of all loops there is room for anything. -/
theorem Ready.of_no_loop (haligned : Aligned a.frames []) (hreplays : a.replays = [])
    (homit : a.omission = none) (inv : Invocation) : Ready a inv := by
  have hnone := haligned.loops_eq_nil
  refine ⟨hreplays ▸ haligned, homit, fun _ => .of_no_loop hnone 1, fun _ => .inl (.of_no_loop hnone 1),
    fun _ c frames hframes => .of_no_loop ?_ 0, fun _ => .of_no_loop hnone 0⟩
  rw [hframes] at hnone
  exact hnone

/-- Reading a line that closes nothing keeps the balance. -/
theorem Took.balanced (ht : Took a line cursor a₁) (h : Balanced 0 a.frames)
    (hmark : ∀ word, Word.firstWord line.text = .ok word → Mark.ofWord word ≠ .closer) :
    Balanced 0 a₁.frames := by
  rw [ht.frames]
  cases hword : Word.firstWord line.text with
  | error e => exact h.read ht.rest fun word hok => by rw [hword] at hok; cases hok
  | ok word =>
      cases hcase : Mark.ofWord word with
      | closer => exact absurd hcase (hmark word hword)
      | neutral =>
          refine h.read ht.rest fun word' hword' => ?_
          rw [← Except.ok.inj (hword.symm.trans hword'), hcase]
          rfl
      | opener =>
          refine (h.read (k := 1) ht.rest fun word' hword' => ?_).mono (Nat.zero_le 1)
          rw [← Except.ok.inj (hword.symm.trans hword'), hcase]
          rfl

theorem Took.opened (ht : Took a line cursor a₁) (h : Balanced 0 a.frames)
    (hmark : ∀ word, Word.firstWord line.text = .ok word → Mark.ofWord word = .opener) :
    Balanced 1 a₁.frames := by
  rw [ht.frames]
  refine h.read ht.rest fun word hword => ?_
  rw [hmark word hword]
  rfl

/-- A line that keeps its first word leaves its script ready for the command that it asks for. -/
theorem Took.ready {words : List String} {number : Option Nat} {inv : Invocation}
    (ht : Took a line cursor a₁) (h : Sound a) (homit : a₁.omission = none) (hkept : Kept line words)
    (hbind : Invocation.bind words number = .ok inv) : Ready a₁ inv := by
  have hbalanced := ht.balanced_before h homit
  cases words with
  | nil => cases hbind
  | cons name args =>
      obtain rfl : inv.verb.name = name := Verb.name_of_ofName? (verb_of_bind hbind).1
      have hmark : ∀ word, Word.firstWord line.text = .ok word →
          Mark.ofWord word = Mark.ofWord (some inv.verb.name) ∨
            (args = [] ∧ Mark.ofWord word = .neutral) := fun word hword => hkept.mark hword
      refine ⟨ht.aligned h, homit, fun hverb => ?_, fun hverb => ?_, fun hverb c frames hframes => ?_,
        fun hverb => ?_⟩
      · have hbare : Invocation.bind [Verb.cond.name] number =
            .error (.fault (.tooFew .cond)) := by
          rw [Invocation.bind, Verb.ofName?_name]
          rfl
        refine ht.opened hbalanced fun word hword => ?_
        rcases hmark word hword with hsame | ⟨hempty, -⟩
        · rw [hsame, hverb, Mark.ofWord_name]
          rfl
        · rw [hverb, hempty, hbare] at hbind
          cases hbind
      · have hbare : Invocation.bind [Verb.loop.name] number =
            .ok { verb := .loop, options := [], args := [], line := number } := by
          rw [Invocation.bind, Verb.ofName?_name]
          rfl
        by_cases hempty : args = []
        · right
          rw [hverb, hempty, hbare] at hbind
          rw [← Except.ok.inj hbind]
          exact ⟨rfl, rfl⟩
        · left
          refine ht.opened hbalanced fun word hword => ?_
          rcases hmark word hword with hsame | ⟨hargs, -⟩
          · rw [hsame, hverb, Mark.ofWord_name]
            rfl
          · exact absurd hargs hempty
      · obtain ⟨below, hbelow, rfl⟩ := eq_cond_of_moveCursor (ht.frames.symm.trans hframes)
        refine ht.below hbelow hbalanced fun word hword => ?_
        rcases hmark word hword with hsame | ⟨-, hneutral⟩
        · rw [hsame, hverb, Mark.ofWord_name]
          exact Mark.noConfusion
        · rw [hneutral]
          exact Mark.noConfusion
      · refine ht.balanced hbalanced fun word hword => ?_
        rcases hmark word hword with hsame | ⟨-, hneutral⟩
        · rw [hsame, Mark.ofWord_name, if_neg hverb]
          split <;> exact Mark.noConfusion
        · rw [hneutral]
          exact Mark.noConfusion

/-- Collecting the body of a loop takes it, and the line that closes it, from the rest of the body
around it.  Nothing else is changed. -/
theorem Collected.frames_eq {frame : LoopFrame} {input input' : List RawLine} {body : Body}
    {a' : Activation} (haligned : Aligned a.frames a.replays)
    (h : Collected (a.push (.loop frame)) input body a' input') :
    ∃ cursor, a'.frames = .loop frame :: moveCursor cursor a.frames ∧
      a'.replays = a.replays ∧ a'.omission = a.omission ∧
      ∀ f fs, loopsOf a.frames = f :: fs → takeBody 0 f.body.rest = .ok body ∧
        ({ f.body with cursor } : Scratch).rest = body.rest := by
  obtain ⟨htaken, hskipped⟩ := h
  cases hr : a.replays with
  | nil =>
      rw [hr] at haligned
      have hnone := haligned.loops_eq_nil
      rw [skipPast_of_feed (show (a.push (.loop frame)).replays = [] from hr)] at hskipped
      obtain ⟨rfl, -⟩ := Prod.mk.inj hskipped
      refine ⟨0, ?_, hr, rfl, fun f fs hloops => ?_⟩
      · rw [moveCursor_of_no_loop hnone]
        rfl
      · rw [hnone] at hloops
        cases hloops
  | cons replay outer =>
      rw [hr] at haligned
      obtain ⟨f, fs, hloops⟩ := haligned.exists_loop
      have htake : takeBody 0 f.body.rest = .ok body := by
        rw [Awaits.upcoming_push (hr ▸ haligned), upcoming_of_replay hr haligned hloops] at htaken
        exact htaken
      rw [skipPast_of_replay hr haligned hloops] at hskipped
      obtain ⟨rfl, -⟩ := Prod.mk.inj hskipped
      refine ⟨_, rfl, hr, rfl, fun g gs hloops' => ?_⟩
      rw [hloops] at hloops'
      cases hloops'
      have hsplit : f.body.rest = (body.lines ++ [body.closer]) ++ body.rest := by
        rw [takeBody_eq htake, List.append_assoc]
        rfl
      exact ⟨htake, rest_cursorBefore hsplit⟩

/-- The room for the block that a `loop` opens is that of its body. -/
theorem Balanced.collect {body : Body} (h : Balanced 1 frames)
    (htaken : ∀ f fs, loopsOf frames = f :: fs → takeBody 0 f.body.rest = .ok body ∧
      ({ f.body with cursor } : Scratch).rest = body.rest) :
    Balanced 0 (Machine.moveCursor cursor frames) := by
  refine h.moveCursor fun f fs hloops m hcloses => ?_
  obtain ⟨htake, hrest⟩ := htaken f fs hloops
  obtain ⟨left, hm, hleft⟩ := closes_rest_of_takeBody htake hcloses
  rw [hrest]
  exact ⟨left, hleft, fun i hi => by omega⟩

omit [Host σ] in
/-- A `loop` without a count and a time has no limit. -/
theorem loopLimits_bare {inv : Invocation} {limits : Option Nat × Option Binary64}
    (hargs : inv.args = []) (hoptions : inv.options = []) :
    (loopLimits inv).exec s ≠ (.ok limits, s') := by
  intro h
  have hfails : (loopLimits inv : Act σ ω _).exec s =
      (.error (.fault { fault := .noLoopLimit inv.name }), s) := by
    unfold loopLimits loopTime Invocation.option
    rw [hargs, hoptions]
    rfl
  rw [hfails] at h
  cases h

omit [Host σ] in
theorem Activation.replaying_eq {f g : LoopFrame} (h : a.frames = .loop f :: frames) :
    (a.replaying g lines).frames = .loop { g with body := { lines } } :: frames ∧
      (a.replaying g lines).replays = ⟨frames.length + 1, 0⟩ :: a.replays := by
  unfold replaying setLoopAt height
  rw [h]
  simp

variable [Sink ω] {settings : Settings} {inv : Invocation}

/-- What a command makes of a script that is ready for it is sound.  A `break` leaves no more loops
than the script has. -/
theorem Performed.sound (h : Ready a inv) (hline : Performed settings inherited a inv s m s') :
    m.All Sound ∧ ∀ levels, m ≠ .unwind levels := by
  have hstays : inv.verb ≠ .close → Sound a :=
    fun hverb => .of_executing h.aligned (h.other hverb) h.executes
  cases hline with
  | simple hverb _ =>
      refine ⟨hstays fun hclose => ?_, fun _ => Move.noConfusion⟩
      rw [hclose] at hverb
      cases hverb
  | call hverb _ hcall =>
      obtain ⟨feed, s₁, -, rfl⟩ := callScript_ok hcall
      refine ⟨⟨.of_executing .nil trivial rfl, hstays ?_⟩, fun _ => Move.noConfusion⟩
      rw [hverb]
      exact Verb.noConfusion
  | loop hverb hlimits _ _ hbody _ =>
      have hroom : Balanced 1 a.frames := by
        rcases h.loop hverb with hroom | ⟨hargs, hoptions⟩
        · exact hroom
        · exact absurd hlimits (loopLimits_bare hargs hoptions)
      have hlines := closes_of_takeBody hbody.taken
      obtain ⟨cursor, hframes, hreplays, homit, htaken⟩ := hbody.frames_eq h.aligned
      have hbalanced := hroom.collect htaken
      refine ⟨.of_executing ?_ ?_ (homit.trans h.executes), fun _ => Move.noConfusion⟩
      · obtain ⟨htop, hbase⟩ := Activation.replaying_eq hframes
        rw [htop, hbase, hreplays]
        exact .loop (h.aligned.moveCursor cursor)
      · rw [(Activation.replaying_eq hframes).1]
        exact ⟨⟨0, Nat.le_refl 0, hlines⟩, hlines, hbalanced⟩
  | leave hverb _ havailable hleave =>
      rw [a.loops_eq, h.aligned.length_eq] at havailable
      obtain ⟨rfl, -⟩ := loops_leaveLoops h.aligned havailable hleave
      have hsound := hstays (by rw [hverb]; exact Verb.noConfusion)
      exact ⟨hsound.leaveLoops hleave, fun _ => Move.noConfusion⟩
  | @cond truth _ hverb _ _ =>
      have hroom := h.cond hverb
      refine ⟨?_, fun _ => Move.noConfusion⟩
      cases truth with
      | true => exact Sound.of_executing (.cond h.aligned) hroom h.executes
      | false => exact ⟨.cond h.aligned, hroom, fun _ => ⟨_, _, rfl⟩⟩
  | otherwise hverb hframes _ =>
      have hroom := h.other (by rw [hverb]; exact Verb.noConfusion)
      have hmarked := Activation.frames_markElse hframes
      refine ⟨⟨?_, ?_, fun _ => ⟨_, _, hmarked⟩⟩, fun _ => Move.noConfusion⟩
      · have haligned : Aligned a.markElse.frames a.markElse.replays := by
          rw [hmarked, a.replays_markElse]
          exact h.aligned.setCond hframes
        exact haligned
      · rw [hframes] at hroom
        have hsame : Balanced 0 a.markElse.frames := by
          rw [hmarked]
          exact hroom
        exact hsame
  | @close c frames hverb hframes =>
      have haligned := h.aligned
      rw [hframes] at haligned
      cases haligned with
      | cond haligned =>
          have hpop : a.pop.frames = frames := by
            rw [Activation.pop, hframes]
            rfl
          refine ⟨.of_executing ?_ ?_ h.executes, fun _ => Move.noConfusion⟩
          · rw [hpop]
            exact haligned
          · rw [hpop]
            exact h.close hverb c frames hframes
  | exit _ _ => exact ⟨trivial, fun _ => Move.noConfusion⟩

/-- Whatever a script does with its next line, its blocks stay in step with its loop bodies, and it
leaves no loops of its caller. -/
theorem Advanced.sound (h : Sound a)
    (hshell : ∀ line a₁ input, a.fetch s.input = (.line line, a₁, input) → a₁.omission = none →
      ShellKeeps settings.shell line { s with input })
    (hadvanced : Advanced settings inherited a s m s') :
    m.All Sound ∧ ∀ levels, m ≠ .unwind levels := by
  cases hadvanced with
  | omitted hfetch homit hline =>
      obtain ⟨cursor, htook⟩ := took_of_fetch h.aligned hfetch
      refine ⟨Omitted.sound h htook homit hline, fun levels => ?_⟩
      cases hline <;> exact Move.noConfusion
  | blank hfetch homit hsplit =>
      obtain ⟨cursor, htook⟩ := took_of_fetch h.aligned hfetch
      have hkept := kept_of_split (hshell _ _ _ hfetch homit) hsplit
      refine ⟨.of_executing (htook.aligned h) ?_ homit, fun _ => Move.noConfusion⟩
      refine htook.balanced (htook.balanced_before h homit) fun word hword => ?_
      rw [hkept.mark_nil hword]
      exact Mark.noConfusion
  | performed hfetch homit hsplit hbind hline =>
      obtain ⟨cursor, htook⟩ := took_of_fetch h.aligned hfetch
      have hkept := kept_of_split (hshell _ _ _ hfetch homit) hsplit
      exact hline.sound (htook.ready h homit hkept hbind)
  | iterated hfetch hreplays hend =>
      obtain ⟨⟨hframes, hsame, homit⟩, hrest⟩ := ended_of_fetch h.aligned hfetch
      refine ⟨hend.sound (h.congr hframes hsame homit) ?_ hreplays, fun levels => ?_⟩
      · rw [hframes]
        exact hrest
      · cases hend <;> exact Move.noConfusion
  | finished _ _ _ _ => exact ⟨trivial, fun _ => Move.noConfusion⟩

end InputScript.Machine
