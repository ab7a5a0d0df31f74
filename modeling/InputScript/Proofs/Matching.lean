import InputScript.Proofs.Blocks
import InputScript.Proofs.Transition

/-!
# Matching a block with the machine

`Matches` says what the machine has to do for the result of a block that is interpreted: get to the
lines behind the block, leave loops, leave the script, fail, or go on for as many steps as there were
iterations allowed.

The block's surroundings are seen twice, as the scope of the interpretation and as the activation of
the machine; `Activation.scope` computes the one from the other.  The surroundings of a block differ
from those of the statement it belongs to by one frame.  What leaves both at once does not see the
difference: that is `Leaves`, and it lets a result be handed from the inner to the outer block.
-/

namespace InputScript.Machine

open Device (Sink)
open Script (Line DecodeFault)

variable {σ ω : Type} [Host σ] [Sink ω] {settings : Settings} {a : Activation}
  {callers : List Activation}

/-! ## Scopes of activations -/

namespace Activation

/-- The scope of a block that is about to run. -/
def scope (a : Activation) (inherited : Option Countdown) : Scope where
  source := a.source
  depth := a.depth
  height := a.height
  loops := a.loops.map LoopFrame.toCountdown
  inherited := inherited

/-- The activation inside of one more loop, in an iteration. -/
def inLoop (a : Activation) (f : LoopFrame) (iterations : Nat) : Activation :=
  { a with
    frames := .loop f :: a.frames
    replays := ⟨a.height + 1, iterations⟩ :: a.replays }

theorem countdown?_scope (a : Activation) (inherited : Option Countdown) :
    (a.scope inherited).countdown? = a.countdown? inherited := by
  unfold Scope.countdown? scope countdown?
  cases a.loops <;> rfl

theorem scope_push_cond (a : Activation) (c : CondFrame) (inherited : Option Countdown) :
    (a.push (.cond c)).scope inherited = (a.scope inherited).inCond := rfl

theorem countdowns_moveCursor (cursor : Nat) (frames : List Frame) :
    (loopsOf (moveCursor cursor frames)).map LoopFrame.toCountdown =
      (loopsOf frames).map LoopFrame.toCountdown := by
  induction frames with
  | nil => rfl
  | cons frame frames ih =>
      cases frame with
      | cond c => exact ih
      | loop f => rfl

/-- Moving on in a source changes nothing of the surroundings. -/
theorem scope_seek (a : Activation) (feed : Feed) (cursor : Nat) (inherited : Option Countdown) :
    (a.seek feed cursor).scope inherited = a.scope inherited := by
  unfold seek scope
  cases a.replays with
  | nil => rfl
  | cons replay replays =>
      have hloops := countdowns_moveCursor cursor a.frames
      have hheight := length_moveCursor cursor a.frames
      simp only [loops_eq, height, hloops, hheight]

theorem identity_seek (a : Activation) (feed : Feed) (cursor : Nat) :
    (a.seek feed cursor).identity = a.identity := by
  unfold seek
  split <;> rfl

theorem aligned_inLoop (h : Aligned a.frames a.replays) (f : LoopFrame)
    (iterations : Nat) :
    Aligned (a.inLoop f iterations).frames (a.inLoop f iterations).replays :=
  .loop h

end Activation

/-- In an iteration the lines to come are those of the body. -/
theorem awaits_inLoop (h : Aligned a.frames a.replays) (f : LoopFrame)
    (iterations : Nat) : Awaits (a.inLoop f iterations) f.body.rest none :=
  ⟨fun hnil => absurd hnil (List.cons_ne_nil _ _),
    fun input => upcoming_of_replay rfl (Activation.aligned_inLoop h f iterations) rfl input⟩

/-! ## Leaving loops -/

/-- The activation after its innermost loop was left. -/
def Activation.outside (a : Activation) : Activation :=
  { a with frames := outsideLoop a.frames, omission := none }

omit [Sink ω] in
theorem leaveLoops_cons {inherited : Option Countdown} {replay : Replay}
    {replays : List Replay} (h : Aligned a.frames (replay :: replays)) (levels : Nat) :
    (leaveLoops inherited a (levels + 1) (replay :: replays) : Act σ ω _) = (do
      publish (a.outside.countdown? inherited)
      Act.note (.loopBroken (replay.iterations + 1) (a.loops.head?.bind (·.line)))
      leaveLoops inherited a.outside levels replays) := by
  rw [leaveLoops, h.breakLoop_eq]
  cases a.loops.head? <;> rfl

omit [Sink ω] in
/-- The replays of an activation do not count; those that are left are given apart. -/
theorem leaveLoops_replays (inherited : Option Countdown) (a : Activation)
    (others : List Replay) (levels : Nat) (replays : List Replay) :
    (leaveLoops inherited { a with replays := others } levels replays : Act σ ω _) =
      leaveLoops inherited a levels replays := by
  induction replays generalizing a levels with
  | nil => cases levels <;> rfl
  | cons replay replays ih =>
      cases levels with
      | zero => rfl
      | succ levels =>
          rw [leaveLoops, leaveLoops]
          have hrest := ih (a.breakLoop replay.base).2 levels
          dsimp only
          rw [← hrest]
          rfl

/-- Leaving loops, leaving the script and failing are the same from both activations. -/
structure Leaves (σ ω : Type) [Host σ] (callers : List Activation) (a b : Activation) :
    Prop where
  identity : a.identity = b.identity
  unwind : ∀ levels, (unwind none (levels + 1) (a :: callers) : Act σ ω _) =
    Machine.unwind none (levels + 1) (b :: callers)

namespace Leaves

variable {a b c : Activation}

omit [Sink ω]

theorem trans (h : Leaves σ ω callers a b) (h' : Leaves σ ω callers b c) :
    Leaves σ ω callers a c :=
  ⟨h.identity.trans h'.identity, fun levels => (h.unwind levels).trans (h'.unwind levels)⟩

/-- It is enough that the innermost loop is the same, if there is one. -/
theorem of_outside (hidentity : a.identity = b.identity) (hreplays : a.replays = b.replays)
    (ha : Aligned a.frames a.replays) (hb : Aligned b.frames b.replays)
    (hloop : a.replays ≠ [] → a.outside = b.outside ∧
      a.loops.head?.bind (·.line) = b.loops.head?.bind (·.line)) :
    Leaves σ ω callers a b := by
  refine ⟨hidentity, fun levels => ?_⟩
  rw [Machine.unwind, Machine.unwind, hreplays]
  rw [hreplays] at ha hloop
  cases hr : b.replays with
  | nil => rfl
  | cons replay replays =>
      rw [hr] at ha hb hloop
      obtain ⟨houtside, hline⟩ := hloop (List.cons_ne_nil _ _)
      rw [leaveLoops_cons ha, leaveLoops_cons hb, houtside, hline]

theorem seek (h : Aligned a.frames a.replays) (feed : Feed) (cursor : Nat) :
    Leaves σ ω callers (a.seek feed cursor) a := by
  refine of_outside (a.identity_seek feed cursor) (a.replays_seek feed cursor)
    (Activation.aligned_seek feed cursor h) h fun hne => ?_
  rw [Activation.replays_seek] at hne
  obtain ⟨replay, replays, hr⟩ := List.exists_cons_of_ne_nil hne
  rw [hr] at h
  obtain ⟨f, fs, hloops⟩ := h.exists_loop
  rw [Activation.seek_of_cons _ _ hr]
  constructor
  · simp [Activation.outside]
  · simp only [Activation.loops_eq, loopsOf_moveCursor hloops, hloops]
    rfl

theorem push_cond (h : Aligned a.frames a.replays) (c : CondFrame) :
    Leaves σ ω callers (a.push (.cond c)) a :=
  of_outside rfl rfl (.cond h) h fun _ => ⟨rfl, rfl⟩

end Leaves

omit [Sink ω] in
/-- Leaving a loop and more is leaving the loop, and then the others from outside. -/
theorem unwind_inLoop (h : Aligned a.frames a.replays)
    (homit : a.omission = none) (f : LoopFrame) (iterations levels : Nat) :
    (unwind none (levels + 1) (a.inLoop f iterations :: callers) : Act σ ω _) = (do
      publish (a.countdown? (countdown? none callers))
      Act.note (.loopBroken (iterations + 1) f.line)
      unwind none levels (a :: callers)) := by
  have houtside : (a.inLoop f iterations).outside =
      { a with replays := (a.inLoop f iterations).replays } := by
    simp [Activation.outside, Activation.inLoop, outsideLoop, homit]
  have hcountdown : (a.inLoop f iterations).outside.countdown? (countdown? none callers) =
      a.countdown? (countdown? none callers) := by
    rw [houtside]
    rfl
  rw [unwind, unwind, show (a.inLoop f iterations).replays =
    ⟨a.height + 1, iterations⟩ :: a.replays from rfl,
    leaveLoops_cons (Activation.aligned_inLoop h f iterations), hcountdown, houtside,
    leaveLoops_replays]
  simp only [bind_assoc]
  rfl

/-! ## Results -/

/-- From `c` the machine does what the result of a block says.  The block is run by `a`, and behind
it come `rest` and `fault`; an unfinished block keeps the machine busy for `bound` steps. -/
def Matches (settings : Settings) (callers : List Activation) (bound : Nat) (a : Activation)
    (rest : List Line) (fault : Option DecodeFault) (c : Conf σ ω) :
    Except (Trouble Failure) Signal × Session σ ω → Prop
  | (.ok .next, s) =>
    ∃ feed cursor, Awaits (a.seek feed cursor) rest fault ∧
      Leads settings c (.running (a.seek feed cursor :: callers), s)
  | (.ok (.leave levels), s) =>
    0 < levels ∧
      Leads settings c (settle (a :: callers) (unwind none levels (a :: callers)) s)
  | (.ok .exit, s) =>
    Leads settings c
      (settle (a :: callers)
        (exitScript (countdown? none callers) a >>= follow none callers) s)
  | (.ok .unfinished, _) => Busy settings bound c
  | (.error e, s) => Leads settings c (settle (a :: callers) (throw e) s)

omit [Sink ω] in
theorem exitScript_congr {a b : Activation} (h : a.identity = b.identity)
    (inherited : Option Countdown) :
    (exitScript inherited a : Act σ ω Move) = exitScript inherited b := by
  obtain ⟨hrole, hsource⟩ : a.role = b.role ∧ a.source = b.source := by
    simp only [Activation.identity, Prod.mk.injEq] at h
    exact ⟨h.1, h.2.1⟩
  simp only [exitScript, exitNotes, finish, Activation.reset, hrole, hsource]

variable {s : Session σ ω}

namespace Matches

variable {bound : Nat} {a b : Activation} {rest mid : List Line} {fault fault' : Option DecodeFault}
  {c c' : Conf σ ω} {r : Except (Trouble Failure) Signal × Session σ ω}

/-- Steps may come first. -/
theorem of_leads (hleads : Leads settings c c')
    (h : Matches settings callers bound a rest fault c' r) :
    Matches settings callers bound a rest fault c r := by
  obtain ⟨e | signal, s⟩ := r
  · exact hleads.trans h
  · cases signal with
    | next =>
        obtain ⟨feed, cursor, hawaits, hend⟩ := h
        exact ⟨feed, cursor, hawaits, hleads.trans hend⟩
    | leave levels => exact ⟨h.1, hleads.trans h.2⟩
    | exit => exact hleads.trans h
    | unfinished => exact Busy.of_leads hleads h

/-- A step more is a step more to be busy. -/
theorem succ {activations : List Activation}
    (h : Matches settings callers bound a rest fault (step settings activations s) r) :
    Matches settings callers (bound + 1) a rest fault (.running activations, s) r := by
  have hleads := of_leads (Leads.step activations s) h
  obtain ⟨e | signal, s'⟩ := r
  · exact hleads
  · cases signal with
    | unfinished => exact Busy.succ h
    | next => exact hleads
    | leave levels => exact hleads
    | exit => exact hleads

/-- A result other than going on is handed from the inner to the outer block. -/
theorem escape (hleaves : Leaves σ ω callers a b)
    (h : Matches settings callers bound a mid fault c r)
    (hnext : ∀ s, r = (.ok .next, s) → Matches settings callers bound b rest fault' c r) :
    Matches settings callers bound b rest fault' c r := by
  have hcalled : a.calledFrom = b.calledFrom := by
    have hidentity := hleaves.identity
    simp only [Activation.identity, Prod.mk.injEq] at hidentity
    exact hidentity.2.2.2
  obtain ⟨e | signal, s⟩ := r
  · simp only [Matches, settle_cons_congr hcalled] at h ⊢
    exact h
  · cases signal with
    | next => exact hnext s rfl
    | leave levels =>
        obtain ⟨hpos, hleads⟩ := h
        obtain ⟨n, rfl⟩ := Nat.exists_eq_succ_of_ne_zero (Nat.ne_of_gt hpos)
        rw [settle_cons_congr hcalled, hleaves.unwind] at hleads
        exact ⟨hpos, hleads⟩
    | exit =>
        simp only [Matches] at h ⊢
        rw [← settle_cons_congr hcalled, ← exitScript_congr hleaves.identity]
        exact h
    | unfinished => exact h

/-- After the inner block has gone on, the outer block has its own result. -/
theorem andThen {act next : Act σ ω Signal} (hleaves : Leaves σ ω callers a b)
    (h : Matches settings callers bound a mid fault c (act.exec s))
    (hnext : ∀ feed cursor s', Awaits (a.seek feed cursor) mid fault →
      Matches settings callers bound b rest fault' (.running (a.seek feed cursor :: callers), s')
        (next.exec s')) :
    Matches settings callers bound b rest fault' c ((Signal.andThen act next).exec s) := by
  unfold Signal.andThen
  rw [Act.exec_bind]
  rcases hact : act.exec s with ⟨e | signal, s'⟩
  · rw [hact] at h
    exact h.escape hleaves fun _ hr => nomatch hr
  · rw [hact] at h
    cases signal with
    | next =>
        obtain ⟨feed, cursor, hawaits, hleads⟩ := h
        exact (hnext feed cursor s' hawaits).of_leads hleads
    | leave levels => exact h.escape hleaves fun _ hr => nomatch hr
    | exit => exact h.escape hleaves fun _ hr => nomatch hr
    | unfinished => exact h.escape hleaves fun _ hr => nomatch hr

/-- A block may be run from further on in its source. -/
theorem of_seek (haligned : Aligned a.frames a.replays) (feed : Feed) (cursor : Nat)
    (h : Matches settings callers bound (a.seek feed cursor) rest fault c r) :
    Matches settings callers bound a rest fault c r := by
  refine h.escape (.seek haligned feed cursor) ?_
  rintro s rfl
  obtain ⟨feed', cursor', hawaits, hleads⟩ := h
  rw [Activation.seek_seek] at hawaits hleads
  exact ⟨feed', cursor', hawaits, hleads⟩

/-- A step that does the first part of a block, and then what is left of the step. -/
theorem of_step {α : Type} {act : Act σ ω α} {next : α → Act σ ω Signal}
    {after : α → Act σ ω (Nat × List Activation)} (hcalled : b.calledFrom = a.calledFrom)
    (hstep : step settings (b :: callers) s = settle (b :: callers) (act >>= after) s)
    (hnext : ∀ v s', act.exec s = (.ok v, s') →
      Matches settings callers bound a rest fault (settle (b :: callers) (after v) s')
        ((next v).exec s')) :
    Matches settings callers bound a rest fault (.running (b :: callers), s)
      ((act >>= next).exec s) := by
  rcases hact : act.exec s with ⟨e | v, s'⟩
  · rw [Act.exec_bind_of_error hact]
    refine .head ?_
    rw [hstep, settle_bind_of_error hact, settle_cons_congr hcalled]
    exact .refl _
  · rw [Act.exec_bind_of_ok hact]
    refine (hnext v s' hact).of_leads (.head ?_)
    rw [hstep, settle_bind_of_ok hact]
    exact .refl _

end Matches

/-! ## Lines -/

/-- A control line is executed as its verb. -/
theorem exec_executeLine {verb : Verb} {line : Headed verb}
    {inherited : Option Countdown} {act : Invocation → Act σ ω Move}
    (hcontrol : verb.isControl = true)
    (hkeeps : KeepsKeyword σ ω settings.shell line.toLine)
    (hperform : ∀ inv s, inv.verb = verb → inv.line = some line.number →
      (perform settings inherited a inv).exec s = (act inv).exec s) (s : Session σ ω) :
    (executeLine settings inherited a line.toLine).exec s =
      (heading settings line.toLine >>= act).exec s := by
  unfold executeLine heading
  rw [bind_assoc, Act.exec_bind, Act.exec_bind]
  rcases hsplit : (Expansion.split settings.shell line.text (some line.number)).exec s with
    ⟨e | words, s'⟩
  · rfl
  · have hhead := (hkeeps _ line.head s s' words hsplit verb hcontrol).mpr rfl
    cases words with
    | nil => cases hhead
    | cons word words =>
        cases hhead
        change (dispatch settings inherited a (verb.name :: words) (some line.number)).exec s' =
          (commandOf (verb.name :: words) (some line.number) >>= act).exec s'
        rw [dispatch, Act.exec_bind, Act.exec_bind]
        rcases hcommand : (commandOf (verb.name :: words) (some line.number)).exec s' with
          ⟨e | inv, s''⟩
        · rfl
        · obtain ⟨hbind, -⟩ := commandOf_ok hcommand
          obtain ⟨hverb, hline⟩ := verb_of_bind hbind
          rw [Verb.ofName?_name] at hverb
          cases hverb
          exact hperform inv s'' rfl hline

/-- A line without a keyword is executed as no control flow. -/
theorem exec_executeLine_plain (line : Plain) (a : Activation) (inherited : Option Countdown)
    (hkeeps : KeepsKeyword σ ω settings.shell line.toLine) (s : Session σ ω) :
    (executeLine settings inherited a line.toLine).exec s =
      (executeText settings a.depth line.toLine >>= fun callee =>
        pure (plainMove a callee)).exec s := by
  unfold executeLine executeText
  rw [bind_assoc, Act.exec_bind, Act.exec_bind]
  rcases hsplit : (Expansion.split settings.shell line.text (some line.number)).exec s with
    ⟨e | words, s'⟩
  · rfl
  · cases words with
    | nil => rfl
    | cons word words =>
        change (dispatch settings inherited a (word :: words) (some line.number)).exec s' =
          ((commandOf (word :: words) (some line.number) >>= executePlain settings a.depth) >>=
            fun callee => pure (plainMove a callee)).exec s'
        rw [dispatch, bind_assoc, Act.exec_bind, Act.exec_bind]
        rcases hcommand : (commandOf (word :: words) (some line.number)).exec s' with
          ⟨e | inv, s''⟩
        · rfl
        · obtain ⟨hbind, -⟩ := commandOf_ok hcommand
          obtain ⟨hverb, -⟩ := verb_of_bind hbind
          have hcontrol : inv.verb.isControl = false := by
            refine Bool.eq_false_iff.mpr fun hcontrol => line.plain inv.verb hcontrol ?_
            refine (hkeeps _ line.head s s' _ hsplit inv.verb hcontrol).mp ?_
            rw [Verb.name_of_ofName? hverb]
            rfl
          dsimp only
          rw [perform_plain hcontrol]

/-- The script that a line calls knows the line. -/
theorem calledFrom_executeText {depth : Nat} {line : Line} {callee : Activation} {s' : Session σ ω}
    (h : (executeText settings depth line).exec s = (.ok (some callee), s')) :
    callee.calledFrom = some line.number := by
  unfold executeText at h
  obtain ⟨words, s₁, -, h₁⟩ := Act.exec_bind_eq_ok.mp h
  cases words with
  | nil => cases h₁
  | cons word words =>
      obtain ⟨inv, s₂, hcommand, h₂⟩ := Act.exec_bind_eq_ok.mp h₁
      obtain ⟨hbind, -⟩ := commandOf_ok hcommand
      obtain ⟨-, hline⟩ := verb_of_bind hbind
      unfold executePlain at h₂
      split at h₂
      · obtain ⟨callee', s₃, hcall, h₃⟩ := Act.exec_bind_eq_ok.mp h₂
        cases h₃
        obtain ⟨feed, s₄, -, rfl⟩ := callScript_ok hcall
        exact hline
      · obtain ⟨_, s₃, -, h₃⟩ := Act.exec_bind_eq_ok.mp h₂
        cases h₃

/-- A step at a control line: what its verb does that may fail, and then the rest. -/
theorem step_of_heading {verb : Verb} {line : Headed verb} {a a₁ : Activation} {α : Type}
    {act : Invocation → Act σ ω α} {next : α → Act σ ω Move} (hcontrol : verb.isControl = true)
    (hfetch : ∀ input, a.fetch input = (.line line.toLine, a₁, input)) (homit : a₁.omission = none)
    (hkeeps : KeepsKeyword σ ω settings.shell line.toLine)
    (hperform : ∀ inv s, inv.verb = verb → inv.line = some line.number →
      (perform settings (countdown? none callers) a₁ inv).exec s = (act inv >>= next).exec s)
    (hnext : ∀ v s, ∃ m s', (next v).exec s = (.ok m, s')) :
    step settings (a :: callers) s =
      settle (a :: callers)
        (atLine settings (a₁.scope (countdown? none callers)) line.toLine act >>= fun v =>
          next v >>= follow none callers) s := by
  rw [step_of_line hfetch]
  refine settle_congr ?_
  have hline := exec_executeLine hcontrol hkeeps hperform s
  rw [← bind_assoc] at hline
  have hlocated : (located a₁.source (some line.number)
      (executeLine settings (countdown? none callers) a₁ line.toLine)).exec s =
      (located a₁.source (some line.number) (heading settings line.toLine >>= act) >>= next).exec
        s := by
    rw [← exec_located_bind hnext, exec_located, exec_located, hline]
  simp only [homit]
  rw [Act.exec_bind, hlocated, ← Act.exec_bind, bind_assoc]
  rfl

end InputScript.Machine
