import InputScript.Proofs.LoopCounts
import InputScript.Proofs.ReplayBalance

/-!
# When a loop is over

A loop is over at the end of a run of its body: when the run was the last that its count allows, or
when the clock shows its deadline or a later time.  Both are looked at after each run, so that the
body is run at least once.

A run of the body is a part of the run of the machine (`BodyRun`), during which other loops are run
and other scripts are called.  `Rounds` puts such runs one after the other, with what the clock shows
at their ends.  The invariant goes by the number of runs that are done: before the next one the frame
of the loop is on top of the stack, counted down as often, and what is below is as it was when the
body had been collected (`AtRun`).

## Main results

* `AtRun.over`, `AtRun.again` — the end of a run leaves the loop, or begins the next run.
* `AtRun.rounds` — so with any number of runs.
* `loop_iteration_law` — how often the body of a loop is run, and what is left of the loop.
-/

namespace InputScript.Machine

open Device (Sink)
open Script (Line RawLine)

/-! ## Limits -/

namespace LoopFrame

/-- The frame of a loop after some runs of its body. -/
def after (f : LoopFrame) (runs : Nat) : LoopFrame :=
  { f with remaining := f.remaining.map (· - runs) }

/-- A run, counted from one, reaches a limit of the loop.  The clock was read at the ends of the
runs. -/
def OverAt (f : LoopFrame) (readings : List Binary64) (run : Nat) : Prop :=
  f.remaining = some run ∨
    ∃ deadline now, f.deadline = some deadline ∧ readings[run - 1]? = some now ∧
      deadline.le now = true

/-- The end of an iteration is the end of the loop. -/
def Expires (f : LoopFrame) (now : Binary64) : Prop :=
  f.remaining.map (· - 1) = some 0 ∨
    ∃ deadline, f.deadline = some deadline ∧ deadline.le now = true

variable {f : LoopFrame} {readings : List Binary64} {now : Binary64}

theorem after_zero (f : LoopFrame) : f.after 0 = f := by
  cases f with
  | mk countdown line body =>
      rcases countdown with ⟨_ | n, deadline⟩ <;> rfl

theorem after_after (f : LoopFrame) (m n : Nat) : (f.after m).after n = f.after (m + n) := by
  cases f with
  | mk countdown line body =>
      rcases countdown with ⟨_ | count, deadline⟩
      · rfl
      · simp [after, Nat.sub_sub]

/-- What the clock shows later does not matter. -/
theorem overAt_concat {run : Nat} (hpos : 0 < run) (hrun : run ≤ readings.length) :
    f.OverAt (readings ++ [now]) run ↔ f.OverAt readings run := by
  have hindex : run - 1 < readings.length := by omega
  unfold OverAt
  rw [List.getElem?_append_left hindex]

theorem overAt_last :
    f.OverAt (readings ++ [now]) (readings.length + 1) ↔
      f.remaining = some (readings.length + 1) ∨
        ∃ deadline, f.deadline = some deadline ∧ deadline.le now = true := by
  unfold OverAt
  rw [Nat.add_sub_cancel, List.getElem?_concat_length]
  constructor
  · rintro (hcount | ⟨deadline, now', hdeadline, hnow, hle⟩)
    · exact .inl hcount
    · cases hnow
      exact .inr ⟨deadline, hdeadline, hle⟩
  · rintro (hcount | ⟨deadline, hdeadline, hle⟩)
    · exact .inl hcount
    · exact .inr ⟨deadline, now, hdeadline, rfl, hle⟩

/-- A loop that no run has ended yet expires with the run that reaches a limit. -/
theorem expires_iff (hpos : f.remaining ≠ some 0)
    (hbefore : ∀ run, 0 < run → run ≤ readings.length → ¬ f.OverAt readings run) :
    (f.after readings.length).Expires now ↔
      f.OverAt (readings ++ [now]) (readings.length + 1) := by
  rw [overAt_last]
  refine or_congr ?_ .rfl
  rcases hremaining : f.remaining with _ | n
  · simp [after, hremaining]
  · have hn : 0 < n := by
      rw [hremaining] at hpos
      exact Nat.pos_of_ne_zero fun hzero => hpos (congrArg some hzero)
    have hmore : readings.length < n := by
      by_cases hle : n ≤ readings.length
      · exact absurd (.inl hremaining) (hbefore n hn hle)
      · omega
    simp only [after, hremaining, Option.map_some, Option.some.injEq]
    omega

end LoopFrame

/-! ## The end of an iteration -/

section Iteration

variable {σ ω : Type} [Host σ] {a : Activation} {f : LoopFrame} {replay : Replay}
  {outer : List Replay} {s : Session σ ω}

theorem exec_timeIsUp_iff (deadline : Option Binary64) (s : Session σ ω) :
    ∃ up s', (timeIsUp deadline).exec s = (.ok up, s') ∧
      (up = true ↔ ∃ d, deadline = some d ∧ d.le (Clock.read s.host).1 = true) := by
  cases deadline with
  | none => exact ⟨false, s, rfl, by simp⟩
  | some d => exact ⟨d.le (Clock.read s.host).1, _, rfl, by simp⟩

/-- A loop that expires is taken off the stack. -/
theorem exec_endIteration_of_expires (inherited : Option Countdown)
    (hat : a.loopAt? replay.base = some f) (h : f.Expires (Clock.read s.host).1) :
    ∃ s', (endIteration inherited a replay outer).exec s =
      (.ok (.next { (a.endLoop replay.base (f.after 1)).2 with replays := outer }), s') := by
  obtain ⟨up, s₁, htime, hup⟩ := exec_timeIsUp_iff f.deadline s
  have hlast : f.remaining.map (· - 1) = some 0 ∨ up = true := by
    rw [hup]
    exact h
  unfold endIteration
  rw [hat]
  dsimp only
  rw [Act.exec_bind_of_ok htime, if_pos hlast, Act.exec_bind_of_ok (exec_publish _ _),
    Act.exec_bind_of_ok (Act.exec_note _ _)]
  exact ⟨_, rfl⟩

/-- A loop that does not expire is counted down and begun again. -/
theorem exec_endIteration_of_lasts (inherited : Option Countdown)
    (hat : a.loopAt? replay.base = some f) (h : ¬ f.Expires (Clock.read s.host).1) :
    ∃ s', (endIteration inherited a replay outer).exec s =
      (.ok (.next
        { a.setLoopAt replay.base { f.after 1 with body := f.body.rewind } with
          replays := { replay with iterations := replay.iterations + 1 } :: outer }), s') := by
  obtain ⟨up, s₁, htime, hup⟩ := exec_timeIsUp_iff f.deadline s
  have hmore : ¬ (f.remaining.map (· - 1) = some 0 ∨ up = true) := by
    rw [hup]
    exact h
  unfold endIteration
  rw [hat]
  dsimp only
  rw [Act.exec_bind_of_ok htime, if_neg hmore, Act.exec_bind_of_ok (Act.exec_note _ _),
    Act.exec_bind_of_ok (exec_publish _ _)]
  exact ⟨_, rfl⟩

end Iteration

/-! ## Runs of a body -/

section Stack

variable {a : Activation} {f : LoopFrame} {below : List Frame}

theorem Activation.loopAt?_top (h : a.frames = .loop f :: below) :
    a.loopAt? (below.length + 1) = some f := by
  unfold loopAt? height
  rw [h]
  simp [Frame.loop?]

theorem Activation.setLoopAt_top (h : a.frames = .loop f :: below) (g : LoopFrame) :
    a.setLoopAt (below.length + 1) g = { a with frames := .loop g :: below } := by
  unfold setLoopAt height
  rw [h]
  simp

/-- A body that has ended has ended for good. -/
theorem Activation.fetch_at_end {replay : Replay} {outer : List Replay} {input : List RawLine}
    (hreplays : a.replays = replay :: outer) (h : (a.fetch input).1 = .finished)
    (input' : List RawLine) : a.fetch input' = (.finished, a, input') := by
  unfold fetch at h ⊢
  rw [hreplays] at h ⊢
  dsimp only at h ⊢
  cases hat : a.loopAt? replay.base with
  | none => rfl
  | some frame =>
      rw [hat] at h
      dsimp only at h ⊢
      cases hnext : frame.body.advance with
      | none => rfl
      | some next =>
          rw [hnext] at h
          cases h

end Stack

/-- The loop is to run its body once more, after some runs that are done. -/
structure AtRun (f : LoopFrame) (below : List Frame) (outer : List Replay) (runs : Nat)
    (b : Activation) : Prop where
  frames : b.frames = .loop (f.after runs) :: below
  replays : b.replays = ⟨below.length + 1, runs⟩ :: outer
  omission : b.omission = none

/-- The loop has come to the end of its body, after some runs that were done before. -/
structure AtEnd (f : LoopFrame) (below : List Frame) (outer : List Replay) (runs : Nat)
    (e : Activation) : Prop where
  frames : ∃ cursor, e.frames =
    .loop { f.after runs with body := { f.body with cursor } } :: below
  replays : e.replays = ⟨below.length + 1, runs⟩ :: outer
  omission : e.omission = none
  fetch : ∀ input, e.fetch input = (.finished, e, input)

/-- The loop has been left at the end of its last run.  Its frame comes off the stack without its
body, counted down by all runs. -/
structure LeftAfter (f : LoopFrame) (below : List Frame) (outer : List Replay) (runs : Nat)
    (e b : Activation) : Prop where
  popped : ∃ top, e.loopAt? (below.length + 1) = some top ∧
    e.endLoop (below.length + 1) (top.after 1) =
      ({ f.after runs with body := {} }, { b with replays := e.replays })
  frames : b.frames = below
  replays : b.replays = outer
  omission : b.omission = none

section Runs

variable {σ ω : Type} [Host σ] [Sink ω] {settings : Settings} {callers : List Activation}
  {f : LoopFrame} {below : List Frame} {outer : List Replay} {runs : Nat} {b e : Activation}
  {s s' : Session σ ω}

/-- At the end of a run the frame of the loop is on top, as it was before the run. -/
theorem AtRun.atEnd (h : AtRun f below outer runs b) (hb : Sound b) (he : Sound e)
    (hsame : SameBelow (below.length + 1) b.frames e.frames)
    (hreplays : e.replays = ⟨below.length + 1, runs⟩ :: outer) {input : List RawLine}
    (hfetch : (e.fetch input).1 = .finished) : AtEnd f below outer runs e := by
  have haligned : Aligned b.frames (⟨below.length + 1, runs⟩ :: outer) := h.replays ▸ hb.aligned
  obtain ⟨homit, cursor, hframes, -⟩ := hsame.at_end h.frames haligned he hreplays hfetch
  exact ⟨⟨cursor, hframes⟩, hreplays, homit, Activation.fetch_at_end hreplays hfetch⟩

/-- The step at the end of a body ends the iteration. -/
theorem AtEnd.step_eq (h : AtEnd f below outer runs e)
    (hend : (endIteration (countdown? none callers) e ⟨below.length + 1, runs⟩ outer).exec s =
      (.ok (.next b), s')) :
    step settings (e :: callers) s = (.running (b :: callers), s') :=
  (step_of_body_end h.fetch h.replays s).trans (settle_bind_of_ok hend)

/-- At the end of a run that reaches a limit the loop is left. -/
theorem AtEnd.over (h : AtEnd f below outer runs e)
    (hover : (f.after runs).Expires (Clock.read s.host).1) :
    ∃ b s', step settings (e :: callers) s = (.running (b :: callers), s') ∧
      LeftAfter f below outer (runs + 1) e b := by
  obtain ⟨cursor, hframes⟩ := h.frames
  have htop : e.loopAt? (⟨below.length + 1, runs⟩ : Replay).base = some _ :=
    Activation.loopAt?_top hframes
  have hpopped : e.endLoop (below.length + 1)
      (LoopFrame.after { f.after runs with body := { f.body with cursor } } 1) =
        ({ f.after (runs + 1) with body := {} }, { e with frames := below }) := by
    rw [Activation.endLoop, Activation.setLoopAt_top hframes, ← f.after_after]
    rfl
  obtain ⟨s', hend⟩ := exec_endIteration_of_expires (countdown? none callers) htop hover
  rw [hpopped] at hend
  exact ⟨_, s', h.step_eq hend, ⟨_, htop, hpopped⟩, rfl, rfl, h.omission⟩

/-- At the end of a run that reaches no limit the next run begins. -/
theorem AtEnd.again (h : AtEnd f below outer runs e) (hcursor : f.body.cursor = 0)
    (hlasts : ¬ (f.after runs).Expires (Clock.read s.host).1) :
    ∃ b s', step settings (e :: callers) s = (.running (b :: callers), s') ∧
      AtRun f below outer (runs + 1) b := by
  obtain ⟨cursor, hframes⟩ := h.frames
  have htop : e.loopAt? (⟨below.length + 1, runs⟩ : Replay).base = some _ :=
    Activation.loopAt?_top hframes
  have hbody : f.body = { f.body with cursor := 0 } := by rw [← hcursor]
  obtain ⟨s', hend⟩ := exec_endIteration_of_lasts (countdown? none callers) htop hlasts
  refine ⟨_, s', h.step_eq hend, ?_, rfl, ?_⟩
  · rw [Activation.setLoopAt_top hframes, ← f.after_after]
    show Frame.loop { (f.after runs).after 1 with body := { f.body with cursor := 0 } } :: below = _
    rw [← hbody]
    rfl
  · rw [Activation.setLoopAt_top hframes]
    exact h.omission

/-- A run of the body of the innermost loop: the machine stays in the iteration until it comes to the
end of the body. -/
structure BodyRun (settings : Settings) (callers : List Activation) (replays : List Replay)
    (b : Activation) (s : Session σ ω) (e : Activation) (s' : Session σ ω) : Prop where
  begins : b.replays = replays
  stays : Iterating settings callers replays (.running (b :: callers), s)
    (.running (e :: callers), s')
  within : e.replays = replays
  ends : (e.fetch s'.input).1 = .finished

/-- The machine runs the body of a loop again and again.  The loop is given by the height of its frame
and the loops around it; with each run goes what the clock shows at its end. -/
inductive Rounds (settings : Settings) (callers : List Activation) (base : Nat)
    (outer : List Replay) (start : Conf σ ω) : List Binary64 → Conf σ ω → Prop
  | nil : Rounds settings callers base outer start [] start
  | round {readings : List Binary64} {b e : Activation} {s s' : Session σ ω}
      (h : Rounds settings callers base outer start readings (.running (b :: callers), s))
      (hrun : BodyRun settings callers (⟨base, readings.length⟩ :: outer) b s e s') :
      Rounds settings callers base outer start (readings ++ [(Clock.read s'.host).1])
        (step settings (e :: callers) s')

/-- Where a loop is after some runs of its body. -/
inductive Course (settings : Settings) (callers : List Activation) (f : LoopFrame)
    (below : List Frame) (outer : List Replay) (readings : List Binary64) : Conf σ ω → Prop
  /-- No run has reached a limit, and the next one begins. -/
  | goesOn {b : Activation} {s : Session σ ω} (hat : AtRun f below outer readings.length b)
      (hbefore : ∀ run, 0 < run → run ≤ readings.length → ¬ f.OverAt readings run) :
      Course settings callers f below outer readings (.running (b :: callers), s)
  /-- The last run was the first to reach a limit, and the loop has been left. -/
  | isOver {e b : Activation} {s s' : Session σ ω} (hsome : 0 < readings.length)
      (hlast : f.OverAt readings readings.length)
      (hbefore : ∀ run, 0 < run → run < readings.length → ¬ f.OverAt readings run)
      (hstep : step settings (e :: callers) s = (.running (b :: callers), s'))
      (hleft : LeftAfter f below outer readings.length e b) :
      Course settings callers f below outer readings (.running (b :: callers), s')

/-- A run of the body in a run of the machine comes to the end of the body. -/
theorem AtRun.run {start : Conf σ ω}
    (hsound : ∀ {activations s}, Leads settings start (.running activations, s) →
      ∀ a ∈ activations, Sound a)
    (hleads : Leads settings start (.running (b :: callers), s)) (h : AtRun f below outer runs b)
    (hrun : BodyRun settings callers (⟨below.length + 1, runs⟩ :: outer) b s e s') :
    AtEnd f below outer runs e := by
  obtain ⟨above, b', _, hc, -, -, hsame⟩ :=
    sameBelow_of_sound (fun hleads a ha _ => hsound hleads a ha)
      (show Leads settings start (.running ([] ++ b :: callers), s) from hleads) rfl
      (hrun.begins ▸ List.suffix_rfl) hrun.stays
  have hpos : [] ++ e :: callers = above ++ b' :: callers := Status.running.inj (Prod.mk.inj hc).1
  obtain ⟨-, hcons⟩ := List.append_inj' hpos rfl
  cases hcons
  have hb := hsound hleads b List.mem_cons_self
  have he := hsound (hleads.trans hrun.stays.leads) e List.mem_cons_self
  exact h.atEnd hb he hsame hrun.within hrun.ends

/-- However often the body was run, the loop goes on as long as no limit is reached, and is left with
the first run that reaches one. -/
theorem AtRun.rounds {start c : Conf σ ω} {readings : List Binary64}
    (hsound : ∀ {activations s}, Leads settings start (.running activations, s) →
      ∀ a ∈ activations, Sound a)
    (hleads : Leads settings start (.running (b :: callers), s)) (h : AtRun f below outer 0 b)
    (hcursor : f.body.cursor = 0) (hpos : f.remaining ≠ some 0)
    (hrounds : Rounds settings callers (below.length + 1) outer (.running (b :: callers), s)
      readings c) :
    Leads settings start c ∧ Course settings callers f below outer readings c := by
  induction hrounds with
  | nil => exact ⟨hleads, .goesOn h fun run hrun hle => absurd hle (Nat.not_le.mpr hrun)⟩
  | @round readings b e s s' _ hrun ih =>
      obtain ⟨hbegins, hcourse⟩ := ih
      refine ⟨(hbegins.trans hrun.stays.leads).trans (.step _ _), ?_⟩
      cases hcourse with
      | isOver _ _ _ _ hleft =>
          have hsame := hrun.begins.symm.trans hleft.replays
          exact absurd hsame (List.cons_ne_self _ _)
      | goesOn hat hbefore =>
          have hend := hat.run hsound hbegins hrun
          have hiff : (f.after readings.length).Expires (Clock.read s'.host).1 ↔ _ :=
            LoopFrame.expires_iff hpos hbefore
          have hlength : (readings ++ [(Clock.read s'.host).1]).length = readings.length + 1 :=
            List.length_append
          by_cases hover : (f.after readings.length).Expires (Clock.read s'.host).1
          · obtain ⟨b', s'', hstep, hleft⟩ := hend.over hover
            rw [hstep]
            refine .isOver ?_ ?_ ?_ hstep ?_
            · omega
            · rw [hlength]
              exact hiff.mp hover
            · intro run hrun hlt
              rw [LoopFrame.overAt_concat hrun (by omega)]
              exact hbefore run hrun (by omega)
            · rw [hlength]
              exact hleft
          · obtain ⟨b', s'', hstep, hat'⟩ := hend.again hcursor hover
            rw [hstep]
            refine .goesOn ?_ ?_
            · rw [hlength]
              exact hat'
            · intro run hrun hle
              by_cases hlast : run = readings.length + 1
              · rw [hlast, ← hiff]
                exact hover
              · rw [LoopFrame.overAt_concat hrun (by omega)]
                exact hbefore run hrun (by omega)

/-! ## Loops of a run -/

/-- A `loop` line is executed in a run.  The line was read, and the script is in its loop next. -/
inductive EntersLoop (settings : Settings) (launch : Launch) (s₀ : Session σ ω) (inv : Invocation)
    (a : Activation) (callers : List Activation) (s : Session σ ω) :
    Activation → Session σ ω → Prop
  | intro {a₀ b : Activation} {line : Line} {input : List RawLine} {words : List String}
      {s₁ s₂ s' : Session σ ω}
      (hleads : Leads settings (launch.start settings s₀) (.running (a₀ :: callers), s₁))
      (hfetch : a₀.fetch s₁.input = (.line line, a, input)) (homit : a.omission = none)
      (hsplit : (Expansion.split settings.shell line.text (some line.number)).exec
        { s₁ with input } = (.ok words, s₂))
      (hcommand : (commandOf words (some line.number)).exec s₂ = (.ok inv, s))
      (hverb : inv.verb = .loop)
      (hperform : (perform settings (countdown? none callers) a inv).exec s = (.ok (.next b), s')) :
      EntersLoop settings launch s₀ inv a callers s b s'

variable {launch : Launch} {s₀ : Session σ ω} {inv : Invocation} {a : Activation}

theorem EntersLoop.leads (h : EntersLoop settings launch s₀ inv a callers s b s') :
    Leads settings (launch.start settings s₀) (.running (b :: callers), s') := by
  cases h with
  | @intro a₀ _ _ _ _ s₁ _ _ hleads hfetch homit hsplit hcommand _ hperform =>
      have hadvance := exec_advance_of_command (countdown? none callers) hfetch homit hsplit hcommand
      rw [exec_located, hperform] at hadvance
      have hstep : step settings (a₀ :: callers) s₁ = (.running (b :: callers), s') :=
        settle_of_running (Act.exec_bind_of_ok hadvance)
      exact hleads.trans (hstep ▸ .step _ _)

/-- A loop that is entered is to be run for the first time. -/
theorem EntersLoop.atRun (h : EntersLoop settings launch s₀ inv a callers s b s')
    (haligned : Aligned a.frames a.replays) :
    ∃ count time body cursor, (loopLimits inv).exec s = (.ok (count, time), s) ∧
      takeBody 0 (a.upcoming s.input).1 = .ok body ∧
      (∀ g gs, a.loops = g :: gs → g.body.lines.drop cursor = body.rest) ∧
      AtRun
        { remaining := count, deadline := time.map ((Clock.read s.host).1 + ·), line := inv.line
          body := { lines := body.lines } }
        (moveCursor cursor a.frames) a.replays 0 b := by
  obtain ⟨-, -, homit, -, -, hverb, hperform⟩ := h
  obtain ⟨count, time, frame, body, a₁, input, hlimits, rfl, hbody, hb⟩ :=
    (performed_of_ok hperform).entered hverb
  cases hb
  obtain ⟨cursor, hframes, hreplays, hskips, hrest⟩ := hbody.frames_eq haligned
  obtain ⟨htop, hbase⟩ := Activation.replaying_eq hframes
  have htaken := hbody.taken
  rw [Awaits.upcoming_push haligned] at htaken
  refine ⟨count, time, body, cursor, hlimits, htaken, fun g gs hloops => (hrest g gs hloops).2, ?_⟩
  refine ⟨?_, ?_, hskips.trans homit⟩
  · rw [LoopFrame.after_zero]
    exact htop
  · rw [hbase, hreplays]

/-- **The law of iterations**.  A loop with a count and a run time, of which at least one is given, runs
the body that it has collected until a limit is reached.  After any number of runs of the body, told
apart by what the clock shows at their ends, the loop is where `Course` says.  Either no run has
reached a limit; then the next run begins, with the count that is left.  Or the last run was the
first to reach one; then the frame of the loop has come off the stack, without its body and counted
down by all runs, and the stack is what it was before the loop, but for the place in the body of a
loop around it, which is behind the loop. -/
theorem loop_iteration_law (settings : Settings) (launch : Launch) (s₀ : Session σ ω)
    (hshell : ∀ {line activations s},
      Executes settings (launch.start settings s₀) line activations s →
      ShellKeeps settings.shell line s)
    {inv : Invocation} {a b : Activation} {callers : List Activation} {s s' : Session σ ω}
    (hloop : EntersLoop settings launch s₀ inv a callers s b s') :
    ∃ count time body cursor f, (loopLimits inv).exec s = (.ok (count, time), s) ∧
      takeBody 0 (a.upcoming s.input).1 = .ok body ∧
      (∀ g gs, a.loops = g :: gs → g.body.lines.drop cursor = body.rest) ∧
      f =
        { remaining := count, deadline := time.map ((Clock.read s.host).1 + ·), line := inv.line
          body := { lines := body.lines } } ∧
      ∀ readings c, Rounds settings callers (a.height + 1) a.replays (.running (b :: callers), s')
          readings c →
        Course settings callers f (moveCursor cursor a.frames) a.replays readings c := by
  have hsound : ∀ {activations s},
      Leads settings (launch.start settings s₀) (.running activations, s) →
      ∀ a ∈ activations, Sound a :=
    fun hleads a ha => (standing_of_leads hshell hleads a ha).toSound
  have haligned : Aligned a.frames a.replays := by
    obtain ⟨hleads, hfetch, -, -, -, -, -⟩ := hloop
    have ha₀ := hsound hleads _ List.mem_cons_self
    obtain ⟨cursor, htook⟩ := took_of_fetch ha₀.aligned hfetch
    exact htook.aligned ha₀
  obtain ⟨count, time, body, cursor, hlimits, hbody, hbehind, hat⟩ := hloop.atRun haligned
  refine ⟨count, time, body, cursor, _, hlimits, hbody, hbehind, rfl, fun readings c hrounds => ?_⟩
  have hheight : (moveCursor cursor a.frames).length + 1 = a.height + 1 :=
    congrArg (· + 1) (length_moveCursor cursor a.frames)
  rw [← hheight] at hrounds
  exact (hat.rounds hsound hloop.leads rfl (count_ne_zero_of_limits hlimits) hrounds).2

end Runs

/-! ### A body that is run twice -/

/-- A loop that is run twice, with a branch that is skipped. -/
def twice : List RawLine :=
  [.text "loop 2\n", .text "  if 0\n", .text "  end\n", .text "end\n"]

/-- The run of `twice`. -/
abbrev twiceLaunch : Launch := .script "main" { pending := some twice }

namespace Twice

/-- The script after it has read some lines, outside of its loop. -/
def outside (lines : Nat) : Activation :=
  { freshScript "main" 0 { pending := some twice } with
    feed := { pending := some (twice.drop lines), past := (twice.take lines).reverse } }

/-- The script in its loop, after some runs of the body. -/
def inside (left runs cursor : Nat) : Activation :=
  (outside 4).inLoop
    { remaining := some left, deadline := none, line := some 1
      body := { lines := [⟨2, "if 0"⟩, ⟨3, "end"⟩], cursor } } runs

/-- The script in its loop while it skips the branch. -/
def skipping (left runs cursor : Nat) : Activation :=
  ((inside left runs cursor).push (.cond { line := some 2 })).startOmission false

variable (s : Session Sandbox Device.Recorder) (left runs : Nat) (input : List RawLine)

theorem fetch_head : (outside 0).fetch input = (.line ⟨1, "loop 2"⟩, outside 1, input) := rfl

theorem fetch_cond :
    (inside left runs 0).fetch input = (.line ⟨2, "if 0"⟩, inside left runs 1, input) := rfl

theorem fetch_close :
    (skipping left runs 1).fetch input = (.line ⟨3, "end"⟩, skipping left runs 2, input) := rfl

theorem fetch_bodyEnd :
    (inside left runs 2).fetch input = (.finished, inside left runs 2, input) := rfl

theorem fetch_end : (outside 4).fetch input = (.finished, outside 4, input) := rfl

theorem split_head :
    (Expansion.split ({} : Settings).shell "loop 2" (some 1)).exec s = (.ok ["loop", "2"], s) :=
  Expansion.exec_split rfl rfl (by cbv) (some 1) s

theorem split_cond :
    (Expansion.split ({} : Settings).shell "if 0" (some 2)).exec s = (.ok ["if", "0"], s) :=
  Expansion.exec_split rfl rfl (by cbv) (some 2) s

/-- The command of the first line. -/
def command : Invocation := { verb := .loop, args := ["2"], line := some 1 }

/-- The session in which the first line is executed. -/
def dispatched : Session Sandbox Device.Recorder :=
  { (twiceLaunch.start {} idle).2 with
    journal := .commandDispatched command :: (twiceLaunch.start {} idle).2.journal }

theorem entersLoop :
    ∃ s', EntersLoop {} twiceLaunch idle command (outside 1) [] dispatched (inside 2 0 0) s' := by
  have hperform : ∃ s', (perform {} (countdown? none []) (outside 1) command).exec dispatched =
      (.ok (.next (inside 2 0 0)), s') := ⟨_, rfl⟩
  obtain ⟨s', hperform⟩ := hperform
  exact ⟨s', .intro (.refl _) (fetch_head _) rfl (split_head _) rfl rfl hperform⟩

theorem step_head :
    ∃ s', step {} [outside 0] (twiceLaunch.start {} idle).2 = (.running [inside 2 0 0], s') :=
  step_of_words fetch_head rfl (split_head _) (List.cons_ne_nil _ _) ⟨_, rfl⟩

theorem step_cond :
    ∃ s', step {} [inside left runs 0] s = (.running [skipping left runs 1], s') :=
  step_of_words (fetch_cond left runs) rfl (split_cond s) (List.cons_ne_nil _ _) ⟨_, rfl⟩

theorem step_close :
    ∃ s', step {} [skipping left runs 1] s = (.running [inside left runs 2], s') :=
  step_of_omission (fetch_close left runs) rfl ⟨_, rfl⟩

theorem step_again : ∃ s', step {} [inside 2 0 2] s = (.running [inside 1 1 0], s') := by
  have hend : ∃ s', (endIteration none (inside 2 0 2) ⟨1, 0⟩ []).exec s =
      (.ok (.next (inside 1 1 0)), s') := ⟨_, rfl⟩
  obtain ⟨s', hend⟩ := hend
  exact ⟨s', (step_of_body_end (fetch_bodyEnd 2 0) rfl s).trans (settle_bind_of_ok hend)⟩

theorem step_over : ∃ s', step {} [inside 1 1 2] s = (.running [outside 4], s') := by
  have hend : ∃ s', (endIteration none (inside 1 1 2) ⟨1, 1⟩ []).exec s =
      (.ok (.next (outside 4)), s') := ⟨_, rfl⟩
  obtain ⟨s', hend⟩ := hend
  exact ⟨s', (step_of_body_end (fetch_bodyEnd 1 1) rfl s).trans (settle_bind_of_ok hend)⟩

theorem step_end : ∃ s', step {} [outside 4] s = (.done .success, s') := by
  obtain ⟨s', hfinish⟩ := exec_finish (a := outside 4) rfl s
  exact ⟨s', (step_of_script_end fetch_end rfl s).trans (settle_bind_of_ok hfinish)⟩

/-- The body is run from its first line to its end. -/
theorem bodyRun :
    ∃ s', BodyRun {} [] [⟨1, runs⟩] (inside left runs 0) s (inside left runs 2) s' := by
  obtain ⟨s₁, h₁⟩ := step_cond s left runs
  obtain ⟨s₂, h₂⟩ := step_close s₁ left runs
  have hinside : ∀ b : Activation, b.replays = [⟨1, runs⟩] → Inside [] [⟨1, runs⟩] (.running [b]) :=
    fun b hb => ⟨[], b, rfl, hb ▸ List.suffix_rfl⟩
  exact ⟨s₂, rfl, (Iterating.refl.of_step h₁ (hinside _ rfl)).of_step h₂ (hinside _ rfl), rfl, rfl⟩

variable {s}

/-- No line goes to the shell. -/
theorem shellKeeps {line : Line} {activations : List Activation}
    (h : Executes {} (twiceLaunch.start {} idle) line activations s) :
    ShellKeeps ({} : Settings).shell line s := by
  obtain ⟨s₁, h₁⟩ := step_head
  obtain ⟨s₂, h₂⟩ := step_cond s₁ 2 0
  obtain ⟨s₃, h₃⟩ := step_close s₂ 2 0
  obtain ⟨s₄, h₄⟩ := step_again s₃
  obtain ⟨s₅, h₅⟩ := step_cond s₄ 1 1
  obtain ⟨s₆, h₆⟩ := step_close s₅ 1 1
  obtain ⟨s₇, h₇⟩ := step_over s₆
  obtain ⟨s₈, h₈⟩ := step_end s₇
  have hkeeps := shellKeeps_of_step (fun _ h => by cases h; rfl) h₁ <|
    shellKeeps_of_step (fun _ h => by cases h; rfl) h₂ <|
    shellKeeps_of_step (fun _ h => by cases h; rfl) h₃ <|
    shellKeeps_of_step (fun _ h => nomatch h) h₄ <|
    shellKeeps_of_step (fun _ h => by cases h; rfl) h₅ <|
    shellKeeps_of_step (fun _ h => by cases h; rfl) h₆ <|
    shellKeeps_of_step (fun _ h => nomatch h) h₇ <|
    shellKeeps_of_step (fun _ h => nomatch h) h₈ fun _ _ _ h => absurd h not_executes_done
  exact hkeeps _ _ _ h

end Twice

/-- The body is run two times, and then the loop is over. -/
theorem loop_iteration_law_twice :
    ∃ s₁ s₂ readings f, readings.length = 2 ∧ f.remaining = some 2 ∧
      EntersLoop {} twiceLaunch idle Twice.command (Twice.outside 1) [] Twice.dispatched
        (Twice.inside 2 0 0) s₁ ∧
      Rounds {} [] 1 [] (.running [Twice.inside 2 0 0], s₁) readings
        (.running [Twice.outside 4], s₂) ∧
      Course {} [] f [] [] readings (.running [Twice.outside 4], s₂) := by
  obtain ⟨s₁, hloop⟩ := Twice.entersLoop
  obtain ⟨s₂, hfirst⟩ := Twice.bodyRun s₁ 2 0
  obtain ⟨s₃, hagain⟩ := Twice.step_again s₂
  obtain ⟨s₄, hsecond⟩ := Twice.bodyRun s₃ 1 1
  obtain ⟨s₅, hover⟩ := Twice.step_over s₄
  have hone : Rounds {} [] 1 [] (.running [Twice.inside 2 0 0], s₁) [(Clock.read s₂.host).1]
      (.running [Twice.inside 1 1 0], s₃) := hagain ▸ Rounds.nil.round hfirst
  have htwo : Rounds {} [] 1 [] (.running [Twice.inside 2 0 0], s₁)
      ([(Clock.read s₂.host).1] ++ [(Clock.read s₄.host).1]) (.running [Twice.outside 4], s₅) :=
    hover ▸ hone.round hsecond
  obtain ⟨count, time, body, cursor, f, hlimits, -, -, hf, hcourse⟩ :=
    loop_iteration_law {} twiceLaunch idle Twice.shellKeeps hloop
  cases (show (loopLimits Twice.command).exec Twice.dispatched =
    (.ok (some 2, none), Twice.dispatched) from rfl).symm.trans hlimits
  exact ⟨s₁, s₅, _, f, rfl, by rw [hf], hloop, htwo, hcourse _ _ htwo⟩

end InputScript.Machine
