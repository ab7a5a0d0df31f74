import InputScript.Proofs.Isolation
import InputScript.Proofs.Placement

/-!
# Breaking out of loops

A `break` leaves the innermost loops of its script, as many as it names, or fails.  It is one
operation on the stack for each loop (`Activation.breakLoop`); `Activation.breakLoops` repeats it
and keeps the frames that are thrown away.  Seen from outside, the stack is cut once, below the last
of the loops, and nothing below is touched.

The script goes on where this last loop was read.  As the loop was read through before it was run,
the line that closes it is behind it (`GoesOnBehind`).

## Main results

* `Aligned.breakLoops_eq` — the frames that are thrown away, and the stack that is left.
* `break_unwinds` — what a `break` in a run does.
-/

namespace InputScript.Machine

open Device (Sink)
open Script (Line RawLine)

/-! ## The frames that are left -/

/-- The innermost loop, with the branches inside it. -/
theorem exists_innermost {frames : List Frame} {f : LoopFrame} {fs : List LoopFrame}
    (h : loopsOf frames = f :: fs) :
    ∃ above, frames = above ++ .loop f :: outsideLoop frames ∧ loopsOf above = [] := by
  induction frames with
  | nil => cases h
  | cons frame frames ih =>
      cases frame with
      | cond c =>
          obtain ⟨above, hframes, hnone⟩ := ih h
          refine ⟨.cond c :: above, ?_, hnone⟩
          rw [outsideLoop, List.cons_append, ← hframes]
      | loop g =>
          cases h
          exact ⟨[], rfl, rfl⟩

/-- Breaks out of the innermost loops; the frames of the loops come with the activation, the innermost
first.  The replays to leave are given apart. -/
def Activation.breakLoops (a : Activation) : Nat → List Replay → List LoopFrame × Activation
  | 0, replays => ([], { a with replays })
  | _ + 1, [] => ([], { a with replays := [] })
  | levels + 1, replay :: replays =>
    let (spent, b) := a.breakLoop replay.base
    let (more, b) := b.breakLoops levels replays
    (spent.toList ++ more, b)

/-- Leaving loops is breaking out of one after the other, as far as there are replays. -/
theorem exec_leaveLoops_eq {σ ω : Type} [Host σ] (inherited : Option Countdown) (a : Activation)
    (levels : Nat) (replays : List Replay) (s : Session σ ω) :
    ∃ s', (leaveLoops inherited a levels replays).exec s =
      (.ok (levels - replays.length, (a.breakLoops levels replays).2), s') := by
  induction replays generalizing a levels s with
  | nil => cases levels <;> exact ⟨s, rfl⟩
  | cons replay replays ih =>
      cases levels with
      | zero => exact ⟨s, by rw [Nat.zero_sub]; rfl⟩
      | succ levels =>
          rw [leaveLoops, Act.exec_bind_of_ok (exec_publish _ s),
            Act.exec_bind_of_ok (Act.exec_note _ _), List.length_cons, Nat.add_sub_add_right]
          exact ih _ _ _

/-- Breaking out of loops cuts the stack below the last of them.  The frames that are thrown away are
those of all loops above, with their bodies forgotten. -/
theorem Aligned.breakLoops_eq {a : Activation} {levels : Nat} {replays : List Replay}
    (h : Aligned a.frames replays) (hlevels : levels < replays.length) :
    ∃ above f below, a.frames = above ++ .loop f :: below ∧ (loopsOf above).length = levels ∧
      Aligned below (replays.drop (levels + 1)) ∧
      a.breakLoops (levels + 1) replays =
        ((loopsOf above ++ [f]).map LoopFrame.spent,
          { a with frames := below, replays := replays.drop (levels + 1), omission := none }) := by
  induction levels generalizing a replays with
  | zero =>
      cases replays with
      | nil => cases hlevels
      | cons replay replays =>
          obtain ⟨f, fs, hloops⟩ := h.exists_loop
          obtain ⟨above, hframes, hnone⟩ := exists_innermost hloops
          refine ⟨above, f, outsideLoop a.frames, hframes, ?_, h.outside, ?_⟩
          · rw [hnone, List.length_nil]
          · rw [Activation.breakLoops, h.breakLoop_eq, a.loops_eq, hloops, hnone]
            rfl
  | succ levels ih =>
      cases replays with
      | nil => cases hlevels
      | cons replay replays =>
          obtain ⟨g, gs, hloops⟩ := h.exists_loop
          obtain ⟨inner, hinner, hnone⟩ := exists_innermost hloops
          -- The loops further out are left by the script that has left the innermost one.
          let b : Activation := { a with frames := outsideLoop a.frames, omission := none }
          have hb : Aligned b.frames replays := h.outside
          obtain ⟨above, f, below, hframes, hlength, hbelow, heq⟩ :=
            ih hb (Nat.lt_of_succ_lt_succ hlevels)
          have habove : loopsOf (inner ++ .loop g :: above) = g :: loopsOf above := by
            rw [loopsOf_append, hnone, loopsOf_loop, List.nil_append]
          refine ⟨inner ++ .loop g :: above, f, below, ?_, ?_, hbelow, ?_⟩
          · rw [hinner, show outsideLoop a.frames = above ++ .loop f :: below from hframes]
            simp
          · rw [habove, List.length_cons, hlength]
          · rw [Activation.breakLoops, h.breakLoop_eq, a.loops_eq, hloops, habove]
            show (_ ++ (b.breakLoops (levels + 1) replays).1, (b.breakLoops (levels + 1) replays).2) = _
            rw [heq]
            rfl

/-! ## Where the script goes on -/

/-- The lines to come stand right behind some lines: in the body of the innermost loop, or else in the
stream of the script, read from one of its physical lines on. -/
def Activation.GoesOnBehind (b : Activation) (input : List RawLine) (lines : List Line) : Prop :=
  match b.loops with
  | g :: _ => ∃ before, g.body.lines = before ++ lines ++ (b.upcoming input).1
  | [] => ∃ before source, b.feed.stream input = before ++ source ∧
      Script.readLinesFrom before.length source =
        (lines ++ (b.upcoming input).1, (b.upcoming input).2)

/-- A script goes on behind the lines that were read last. -/
theorem LastRead.goesOnBehind {b : Activation} {lines : List Line}
    (h : LastRead b.feed b.frames lines) (haligned : Aligned b.frames b.replays)
    (input : List RawLine) : b.GoesOnBehind input lines := by
  unfold Activation.GoesOnBehind
  cases h with
  | @body g gs hloops hread =>
      obtain ⟨before, hbefore⟩ := hread
      cases hr : b.replays with
      | nil =>
          rw [(hr ▸ haligned : Aligned b.frames []).loops_eq_nil] at hloops
          cases hloops
      | cons replay outer =>
          rw [upcoming_of_replay hr (hr ▸ haligned) hloops, b.loops_eq, hloops]
          refine ⟨before, ?_⟩
          rw [hbefore]
          exact (List.take_append_drop _ _).symm
  | @feed before chunk hloops hread hlines hlast =>
      have hnone := haligned.replays_eq_nil hloops
      rw [upcoming_of_feed hnone, b.loops_eq, hloops]
      refine ⟨before, chunk ++ b.feed.rest input, ?_, ?_⟩
      · rw [Feed.stream, hread, List.append_assoc]
      · have hconsumed : b.feed.consumed = before.length + chunk.length := by
          rw [← b.feed.length_read, hread, List.length_append]
        rw [Script.readLinesFrom_append hlines, hconsumed]

/-! ## Breaks of a run -/

section Runs

variable {σ ω : Type} [Host σ] [Sink ω] {settings : Settings} {launch : Launch}
  {s₀ s : Session σ ω} {a : Activation} {callers : List Activation} {inv : Invocation}

/-- The loops of a script that performs a command have their places. -/
theorem placed_of_performs
    (hshell : ∀ {line activations s},
      Executes settings (launch.start settings s₀) line activations s →
      ShellKeeps settings.shell line s)
    (h : Performs settings launch s₀ inv (a :: callers) s) : a.IsPlaced := by
  obtain ⟨hwords, -⟩ := h
  cases hwords with
  | command _ _ => trivial
  | line hline _ _ =>
      obtain ⟨hleads, hfetch, -⟩ := hline
      have hplaced := placed_of_leads hshell hleads _ List.mem_cons_self
      have hsteady := standing_of_leads hshell hleads _ List.mem_cons_self
      exact hplaced.fetch hsteady.toSound.aligned hfetch

omit [Sink ω] in
/-- A `break` out of loops of its script breaks out of them one after the other. -/
theorem exec_startBreak_of_le (inherited : Option Countdown) {levels : Nat}
    (haligned : Aligned a.frames a.replays) (hlevels : (breakLevels inv).exec s = (.ok levels, s))
    (henough : levels ≤ a.loops.length) :
    ∃ s', (startBreak inherited a inv).exec s =
      (.ok (.next (a.breakLoops levels a.replays).2), s') ∧ s'.input = s.input := by
  obtain ⟨s', hleave⟩ := exec_leaveLoops_eq inherited a levels a.replays
    { s with journal := .loopBreak levels :: s.journal }
  have hinput := (leaveLoops_input _ _ _ _).of_eq hleave
  refine ⟨s', ?_, hinput⟩
  rw [startBreak, Act.exec_bind_of_ok hlevels]
  dsimp only
  rw [if_neg (Nat.not_lt.mpr henough), Act.exec_bind_of_ok (Act.exec_note _ _),
    Act.exec_bind_of_ok hleave]
  rw [a.loops_eq, haligned.length_eq] at henough
  rw [Nat.sub_eq_zero_of_le henough]
  rfl

/-- A `break` of more loops than its script is in fails and changes nothing.  Any other cuts the stack
below the last loop that it names, and all that is below stays as it is.  The frames of the loops
that are left lose their bodies, nothing is skipped any more, and the script goes on where the last
of the loops was read, behind the line that closes it. -/
theorem break_unwinds (settings : Settings) (launch : Launch) (s₀ : Session σ ω)
    (hshell : ∀ {line activations s},
      Executes settings (launch.start settings s₀) line activations s →
      ShellKeeps settings.shell line s)
    {inv : Invocation} {a : Activation} {callers : List Activation} {s : Session σ ω} {levels : Nat}
    (hperforms : Performs settings launch s₀ inv (a :: callers) s) (hverb : inv.verb = .leave)
    (hlevels : (breakLevels inv).exec s = (.ok levels, s)) (inherited : Option Countdown) :
    (a.loops.length < levels →
      (perform settings inherited a inv).exec s =
        (.error (.fault { fault := .control (.mismatched inv.name (some a.loops.length)) }), s)) ∧
    (levels ≤ a.loops.length → ∃ above f b s' head closer,
      (perform settings inherited a inv).exec s = (.ok (.next b), s') ∧ s'.input = s.input ∧
      a.frames = above ++ .loop f :: b.frames ∧ (loopsOf above).length + 1 = levels ∧
      b = { a with frames := b.frames, replays := a.replays.drop levels, omission := none } ∧
      a.breakLoops levels a.replays = ((loopsOf above ++ [f]).map LoopFrame.spent, b) ∧
      f.line = some head.number ∧
      takeBody 0 (f.body.lines ++ closer :: (b.upcoming s'.input).1) =
        .ok ⟨f.body.lines, closer, (b.upcoming s'.input).1⟩ ∧
      b.GoesOnBehind s'.input (head :: (f.body.lines ++ [closer]))) := by
  obtain ⟨-, haligned, -⟩ := controlled_of_performs hshell hperforms
  have hperform : (perform settings inherited a inv : Act σ ω Move) = startBreak inherited a inv := by
    unfold perform
    rw [hverb]
  rw [hperform]
  refine ⟨exec_startBreak_of_lt hlevels, fun henough => ?_⟩
  obtain ⟨s', hbreak, hinput⟩ := exec_startBreak_of_le inherited haligned hlevels henough
  obtain ⟨n, rfl⟩ := Nat.exists_eq_add_of_le' (breakLevels_pos hlevels)
  rw [a.loops_eq, haligned.length_eq] at henough
  obtain ⟨above, f, below, hframes, hlength, hbelow, hloops⟩ := haligned.breakLoops_eq henough
  rw [hloops] at hbreak
  have hplaced : Placed a.feed (.loop f :: below) :=
    Placed.of_suffix (placed_of_performs hshell hperforms) ⟨above, hframes.symm⟩
  obtain ⟨⟨head, closer, hread⟩, -⟩ := hplaced
  exact ⟨above, f, _, s', head, closer, hbreak, hinput, hframes, congrArg (· + 1) hlength, rfl, hloops,
    hread.opened, hread.closes _, hread.read.goesOnBehind hbelow _⟩

end Runs

/-! ### A branch that breaks two loops -/

/-- Two loops, the inner one with a branch that leaves both. -/
def nestedLoops : List RawLine :=
  [.text "loop 2\n", .text "  loop 3\n", .text "    if 0 -eq 0\n",
    .text "      break 2\n", .text "    end\n", .text "  end\n", .text "end\n"]

/-- The run of `nestedLoops`. -/
abbrev nestedLaunch : Launch := .script "main" { pending := some nestedLoops }

namespace NestedLoops

/-- The script after it has read some lines, outside of its loops. -/
def outside (lines : Nat) : Activation :=
  { freshScript "main" 0 { pending := some nestedLoops } with
    feed := { pending := some (nestedLoops.drop lines), past := (nestedLoops.take lines).reverse } }

/-- The frame of the outer loop. -/
def outer (cursor : Nat) : LoopFrame :=
  { remaining := some 2, deadline := none, line := some 1
    body :=
      { lines := [⟨2, "loop 3"⟩, ⟨3, "if 0 -eq 0"⟩, ⟨4, "break 2"⟩, ⟨5, "end"⟩, ⟨6, "end"⟩]
        cursor } }

/-- The frame of the inner loop. -/
def inner (cursor : Nat) : LoopFrame :=
  { remaining := some 3, deadline := none, line := some 2
    body := { lines := [⟨3, "if 0 -eq 0"⟩, ⟨4, "break 2"⟩, ⟨5, "end"⟩], cursor } }

/-- The script in its outer loop. -/
def inOuter (cursor : Nat) : Activation := (outside 7).inLoop (outer cursor) 0

/-- The script in its inner loop. -/
def inInner (cursor : Nat) : Activation := (inOuter 5).inLoop (inner cursor) 0

/-- The script in its branch. -/
def inBranch (cursor : Nat) : Activation := (inInner cursor).push (.cond { line := some 3 })

variable (s : Session Sandbox Device.Recorder) (input : List RawLine)

theorem fetch_outer : (outside 0).fetch input = (.line ⟨1, "loop 2"⟩, outside 1, input) := rfl

theorem fetch_inner : (inOuter 0).fetch input = (.line ⟨2, "loop 3"⟩, inOuter 1, input) := rfl

theorem fetch_cond : (inInner 0).fetch input = (.line ⟨3, "if 0 -eq 0"⟩, inInner 1, input) := rfl

theorem fetch_break : (inBranch 1).fetch input = (.line ⟨4, "break 2"⟩, inBranch 2, input) := rfl

theorem fetch_end : (outside 7).fetch input = (.finished, outside 7, input) := rfl

theorem split_outer :
    (Expansion.split ({} : Settings).shell "loop 2" (some 1)).exec s = (.ok ["loop", "2"], s) :=
  Expansion.exec_split rfl rfl (by cbv) (some 1) s

theorem split_inner :
    (Expansion.split ({} : Settings).shell "loop 3" (some 2)).exec s = (.ok ["loop", "3"], s) :=
  Expansion.exec_split rfl rfl (by cbv) (some 2) s

theorem split_cond :
    (Expansion.split ({} : Settings).shell "if 0 -eq 0" (some 3)).exec s =
      (.ok ["if", "0", "-eq", "0"], s) :=
  Expansion.exec_split rfl rfl (by cbv) (some 3) s

theorem split_break :
    (Expansion.split ({} : Settings).shell "break 2" (some 4)).exec s = (.ok ["break", "2"], s) :=
  Expansion.exec_split rfl rfl (by cbv) (some 4) s

theorem step_outer :
    ∃ s', step {} [outside 0] (nestedLaunch.start {} idle).2 = (.running [inOuter 0], s') :=
  step_of_words fetch_outer rfl (split_outer _) (List.cons_ne_nil _ _) ⟨_, rfl⟩

theorem step_inner : ∃ s', step {} [inOuter 0] s = (.running [inInner 0], s') :=
  step_of_words fetch_inner rfl (split_inner s) (List.cons_ne_nil _ _) ⟨_, rfl⟩

theorem step_cond : ∃ s', step {} [inInner 0] s = (.running [inBranch 1], s') :=
  step_of_words fetch_cond rfl (split_cond s) (List.cons_ne_nil _ _) ⟨_, rfl⟩

theorem step_break : ∃ s', step {} [inBranch 1] s = (.running [outside 7], s') :=
  step_of_words fetch_break rfl (split_break s) (List.cons_ne_nil _ _) ⟨_, rfl⟩

theorem step_end : ∃ s', step {} [outside 7] s = (.done .success, s') := by
  obtain ⟨s', hfinish⟩ := exec_finish (a := outside 7) rfl s
  exact ⟨s', (step_of_script_end fetch_end rfl s).trans (settle_bind_of_ok hfinish)⟩

variable {s}

/-- No line goes to the shell. -/
theorem shellKeeps {line : Line} {activations : List Activation}
    (h : Executes {} (nestedLaunch.start {} idle) line activations s) :
    ShellKeeps ({} : Settings).shell line s := by
  obtain ⟨s₁, h₁⟩ := step_outer
  obtain ⟨s₂, h₂⟩ := step_inner s₁
  obtain ⟨s₃, h₃⟩ := step_cond s₂
  obtain ⟨s₄, h₄⟩ := step_break s₃
  obtain ⟨s₅, h₅⟩ := step_end s₄
  have hkeeps := shellKeeps_of_step (fun _ h => by cases h; rfl) h₁ <|
    shellKeeps_of_step (fun _ h => by cases h; rfl) h₂ <|
    shellKeeps_of_step (fun _ h => by cases h; rfl) h₃ <|
    shellKeeps_of_step (fun _ h => by cases h; rfl) h₄ <|
    shellKeeps_of_step (fun _ h => nomatch h) h₅ fun _ _ _ h => absurd h not_executes_done
  exact hkeeps _ _ _ h

/-- The branch gets to its `break`. -/
theorem performs_break :
    ∃ s, Performs {} nestedLaunch idle { verb := .leave, args := ["2"], line := some 4 }
      [inBranch 2] s := by
  obtain ⟨s₁, h₁⟩ := step_outer
  obtain ⟨s₂, h₂⟩ := step_inner s₁
  obtain ⟨s₃, h₃⟩ := step_cond s₂
  have hleads : Leads {} (nestedLaunch.start {} idle) (.running [inBranch 1], s₃) := by
    refine ⟨3, ?_⟩
    calc proceed {} 3 (nestedLaunch.start {} idle)
      _ = proceed {} 2 (.running [inOuter 0], s₁) := congrArg (proceed {} 2) h₁
      _ = proceed {} 1 (.running [inInner 0], s₂) := congrArg (proceed {} 1) h₂
      _ = (.running [inBranch 1], s₃) := h₃
  exact ⟨_, performs_of_line hleads (.intro (fetch_break _) rfl (split_break _) rfl)⟩

end NestedLoops

/-- The `break` leaves both loops with the branch inside, and the script goes on behind the outer
loop. -/
theorem break_unwinds_nestedLoops :
    ∃ s s' head closer,
      Performs {} nestedLaunch idle { verb := .leave, args := ["2"], line := some 4 }
        [NestedLoops.inBranch 2] s ∧
      (perform {} none (NestedLoops.inBranch 2)
        { verb := .leave, args := ["2"], line := some 4 }).exec s =
        (.ok (.next (NestedLoops.outside 7)), s') ∧
      (NestedLoops.inBranch 2).breakLoops 2 (NestedLoops.inBranch 2).replays =
        ([(NestedLoops.inner 2).spent, (NestedLoops.outer 5).spent], NestedLoops.outside 7) ∧
      head.number = 1 ∧
      (NestedLoops.outside 7).GoesOnBehind s'.input
        (head :: ((NestedLoops.outer 5).body.lines ++ [closer])) := by
  obtain ⟨s, hperforms⟩ := NestedLoops.performs_break
  obtain ⟨-, hleaves⟩ := break_unwinds {} nestedLaunch idle NestedLoops.shellKeeps hperforms rfl
    (show (breakLevels _).exec s = (.ok 2, s) from rfl) none
  obtain ⟨above, f, b, s', head, closer, hperform, -, hframes, -, -, hspent, hhead, -, hbehind⟩ :=
    hleaves (by decide)
  have hcompute : (NestedLoops.inBranch 2).breakLoops 2 (NestedLoops.inBranch 2).replays =
      ([(NestedLoops.inner 2).spent, (NestedLoops.outer 5).spent], NestedLoops.outside 7) := rfl
  obtain rfl : NestedLoops.outside 7 = b := congrArg Prod.snd (hcompute.symm.trans hspent)
  obtain rfl : NestedLoops.outer 5 = f := by
    have hlast : (NestedLoops.inBranch 2).frames.getLast? = some (.loop f) := by
      rw [hframes]
      exact List.getLast?_concat
    cases hlast
    rfl
  have hnumber : 1 = head.number := Option.some.inj hhead
  exact ⟨s, s', head, closer, hperforms, hperform, hcompute, hnumber.symm, hbehind⟩

end InputScript.Machine
