import InputScript.Proofs.FirstWord
import InputScript.Proofs.Matching

/-!
# The machine runs structured programs

The machine, given the flat list of the lines of a `Block`, does what `Block.interpret` says of the
tree.  The proof goes along the tree; each statement is matched with the steps that the machine makes
for its lines, and a loop with the steps of its iterations, by induction on their number.

Exhausting the bound of the interpretation costs the machine at least as many steps, so that an end
of the machine's run is also found by the interpretation.

## Main results

* `interpret_matches` — a block in any surroundings, and what the machine makes of its lines.
* `interpret_iff_run` — a whole script.
-/

namespace InputScript.Machine

open Device (Sink)
open Script (Line RawLine DecodeFault)

variable {σ ω : Type} [Host σ] [Sink ω] {settings : Settings} {callers : List Activation}
  {a : Activation} {rest : List Line} {fault : Option DecodeFault}

/-! ## Called scripts -/

/-- A failure of the upper part of a stack is a failure at the line that called it. -/
theorem step_append_fault {x : Activation} {xs : List Activation} {f f' : Failure}
    {s s₁ s₂ : Session σ ω}
    (hturn : (turn settings (countdown? none (a :: callers)) (x :: xs)).exec s =
      (.error (.fault f), s₁))
    (habandon : (abandon (countdown? none (a :: callers)) f (x :: xs) : Act σ ω _).exec s₁ =
      (.ok f', s₂)) :
    step settings (x :: xs ++ a :: callers) s =
      settle (a :: callers) (throw (.fault (f'.locate a.source (enteredFrom (x :: xs))))) s₂ := by
  obtain ⟨f'', s₃, hlower⟩ :=
    exec_abandon none (f'.locate a.source (enteredFrom (x :: xs))) (a :: callers) s₂
  have hwhole : (turn settings none (x :: xs ++ a :: callers)).exec s =
      (.error (.fault f), s₁) := by
    rw [turn_append, Act.exec_bind_of_error hturn]
  have hall : (abandon none f (x :: xs ++ a :: callers) : Act σ ω _).exec s₁ = (.ok f'', s₃) := by
    rw [abandon_append, Act.exec_bind_of_ok habandon, hlower]
  rw [step, settle_of_fault hwhole hall, settle_of_fault (Act.exec_throw _ _) hlower]

/-- Scripts that are called run to their end before the caller goes on. -/
theorem runCalled_matches (settings : Settings) (callers : List Activation)
    (haligned : Aligned a.frames a.replays) (hawaits : Awaits a rest fault) {line : Option Nat}
    (bound : Nat) (x : Activation) (xs : List Activation) (hline : enteredFrom (x :: xs) = line) (s : Session σ ω) :
    Matches settings callers bound a rest fault (.running (x :: xs ++ a :: callers), s)
      ((located a.source line
        (runCalled settings (countdown? none (a :: callers)) bound (x :: xs))).exec s) := by
  induction bound generalizing x xs s with
  | zero => exact ⟨_, _, proceed_zero _⟩
  | succ bound ih =>
      rw [exec_located, runCalled, Act.exec_bind, Act.exec_tryCatch]
      rcases hupper : (turn settings (countdown? none (a :: callers)) (x :: xs)).exec s with
        ⟨(f | c) | ⟨levels, ys⟩, s₁⟩
      · obtain ⟨f', s₂, habandon⟩ :=
          exec_abandon (countdown? none (a :: callers)) f (x :: xs) s₁
        simp only [Act.exec_bind_of_ok habandon, Act.exec_throw]
        refine .head ?_
        rw [step_append_fault hupper habandon, hline]
        exact .refl _
      · have hwhole : (turn settings none (x :: xs ++ a :: callers)).exec s =
            (.error (.crash c), s₁) := by
          rw [turn_append, Act.exec_bind_of_error hupper]
        simp only [Act.exec_throw]
        refine .head ?_
        rw [step, settle_of_crash hwhole]
        exact .refl _
      · have hwhole : (turn settings none (x :: xs ++ a :: callers)).exec s =
            (below none (a :: callers) (levels, ys)).exec s₁ := by
          rw [turn_append, Act.exec_bind_of_ok hupper]
        cases levels with
        | zero =>
            cases ys with
            | nil =>
                obtain ⟨feed, cursor, hself⟩ := Activation.exists_seek_self haligned
                refine ⟨feed, cursor, ?_⟩
                rw [hself]
                refine ⟨hawaits, .head ?_⟩
                rw [step, settle_of_running hwhole]
                exact .refl _
            | cons y ys =>
                have hsame := enteredFrom_turn hupper
                refine .succ ?_
                rw [step, settle_of_running hwhole]
                exact exec_located a.source line _ s₁ ▸ ih y ys (hsame.trans hline) s₁
        | succ levels =>
            refine ⟨Nat.succ_pos levels, .head ?_⟩
            obtain ⟨r, s₂, hunwind⟩ := exec_unwind none (levels + 1) (a :: callers) s₁
            rw [step, settle_congr hwhole, below, settle_of_ok hunwind]
            exact .refl _

/-! ## Iterations -/

/-- The frame of a loop somewhere in its body. -/
def loopFrame (c : Countdown) (line : Option Nat) (b : Block) (cursor : Nat) : LoopFrame :=
  { c with line, body := { lines := b.lines, cursor } }

section EndIteration

variable (a : Activation) (c : Countdown) (line : Option Nat) (b : Block)
  (cursor iterations : Nat)

theorem seek_inLoop (feed : Feed) (cursor' : Nat) :
    (a.inLoop (loopFrame c line b cursor) iterations).seek feed cursor' =
      a.inLoop (loopFrame c line b cursor') iterations := rfl

theorem loopAt?_inLoop (f : LoopFrame) :
    (a.inLoop f iterations).loopAt? (a.height + 1) = some f := by
  simp [Activation.loopAt?, Activation.inLoop, Activation.height, Frame.loop?]

theorem setLoopAt_inLoop (f g : LoopFrame) :
    (a.inLoop f iterations).setLoopAt (a.height + 1) g = a.inLoop g iterations := by
  simp [Activation.setLoopAt, Activation.inLoop, Activation.height]

omit [Sink ω] in
/-- The end of an iteration is decided by the count and the time of the loop. -/
theorem endIteration_inLoop (inherited : Option Countdown) :
    (endIteration inherited (a.inLoop (loopFrame c line b cursor) iterations)
      ⟨a.height + 1, iterations⟩ a.replays : Act σ ω Move) = (do
      let timeDone ← timeIsUp c.deadline
      if c.next.remaining = some 0 ∨ timeDone = true then
        publish (a.countdown? inherited)
        Act.note (.loopFinished (iterations + 1) line)
        return .next a
      else
        Act.note (.loopContinued c.next.remaining (iterations + 1))
        publish (some c.next)
        return .next (a.inLoop (loopFrame c.next line b 0) (iterations + 1))) := by
  rw [endIteration, loopAt?_inLoop]
  simp only [Activation.endLoop, setLoopAt_inLoop]
  rfl

/-- The step after the last line of a body. -/
theorem step_inLoop_end {a : Activation} (haligned : Aligned a.frames a.replays)
    (hend : Awaits (a.inLoop (loopFrame c line b cursor) iterations) [] none) (s : Session σ ω) :
    ∃ cursor', step settings (a.inLoop (loopFrame c line b cursor) iterations :: callers) s =
      settle (a.inLoop (loopFrame c line b cursor) iterations :: callers)
        (endIteration (countdown? none callers)
          (a.inLoop (loopFrame c line b cursor') iterations)
          ⟨a.height + 1, iterations⟩ a.replays >>= follow none callers) s := by
  obtain ⟨feed, cursor', hfetch⟩ :=
    hend.fetch_finished (Activation.aligned_inLoop haligned _ iterations)
  exact ⟨cursor', step_of_body_end hfetch rfl s⟩

end EndIteration

/-- A loop is run by the machine as often as by the interpretation. -/
theorem iterate_matches {b : Block} {line : Option Nat} (haligned : Aligned a.frames a.replays)
    (homit : a.omission = none) (hawaits : Awaits a rest fault) {bound : Nat}
    {body : Countdown → Act σ ω Signal}
    (hbody : ∀ c iterations s,
      Matches settings callers bound (a.inLoop (loopFrame c line b 0) iterations) [] none
        (.running (a.inLoop (loopFrame c line b 0) iterations :: callers), s) ((body c).exec s))
    (n : Nat) (hn : n ≤ bound) (iterations : Nat) (c : Countdown) (s : Session σ ω) :
    Matches settings callers n a rest fault
      (.running (a.inLoop (loopFrame c line b 0) iterations :: callers), s)
      ((iterate (countdown? none (a :: callers)) line body n iterations c).exec s) := by
  obtain ⟨feed₀, cursor₀, hself⟩ := Activation.exists_seek_self haligned
  induction n generalizing iterations c s with
  | zero => exact ⟨_, _, proceed_zero _⟩
  | succ n ih =>
      have hfirst := hbody c iterations s
      rw [iterate, Act.exec_bind]
      rcases hrun : (body c).exec s with ⟨e | signal, s₁⟩
      · rw [hrun] at hfirst
        exact hfirst
      · rw [hrun] at hfirst
        cases signal with
        | next =>
            obtain ⟨feed, cursor, hend, hleads⟩ := hfirst
            rw [seek_inLoop] at hend hleads
            refine Matches.of_leads hleads (.succ ?_)
            obtain ⟨cursor', hstep⟩ := step_inLoop_end c line b cursor iterations haligned hend s₁
            obtain ⟨up, s₂, hup⟩ := exec_timeIsUp c.deadline s₁
            rw [hstep, endIteration_inLoop, bind_assoc, settle_bind_of_ok hup]
            dsimp only
            rw [Act.exec_bind_of_ok hup]
            by_cases hdone : c.next.remaining = some 0 ∨ up = true
            · rw [if_pos hdone, if_pos hdone, bind_assoc,
                settle_bind_of_ok (exec_publish _ s₂), Act.exec_bind_of_ok (exec_publish _ s₂),
                bind_assoc, settle_bind_of_ok (Act.exec_note _ _),
                Act.exec_bind_of_ok (Act.exec_note _ _)]
              refine ⟨feed₀, cursor₀, ?_⟩
              rw [hself]
              exact ⟨hawaits, .refl _⟩
            · rw [if_neg hdone, if_neg hdone, bind_assoc, settle_bind_of_ok (Act.exec_note _ _),
                Act.exec_bind_of_ok (Act.exec_note _ _), bind_assoc,
                settle_bind_of_ok (exec_publish _ _), Act.exec_bind_of_ok (exec_publish _ _)]
              exact ih (Nat.le_of_succ_le hn) (iterations + 1) c.next _
        | leave levels =>
            obtain ⟨hpos, hleads⟩ := hfirst
            obtain ⟨k, rfl⟩ := Nat.exists_eq_succ_of_ne_zero (Nat.ne_of_gt hpos)
            rw [unwind_inLoop haligned homit, settle_bind_of_ok (exec_publish _ s₁),
              settle_bind_of_ok (Act.exec_note _ _)] at hleads
            dsimp only
            rw [Act.exec_bind_of_ok (exec_publish _ s₁), Act.exec_bind_of_ok (Act.exec_note _ _)]
            cases k with
            | zero =>
                rw [settle_of_running (exec_unwind_zero none (a :: callers) _)] at hleads
                refine ⟨feed₀, cursor₀, ?_⟩
                rw [hself]
                exact ⟨hawaits, hleads⟩
            | succ k => exact ⟨Nat.succ_pos k, hleads⟩
        | exit => exact hfirst
        | unfinished => exact Busy.mono hfirst hn

/-! ## Branches -/

section Branch

variable {c : CondFrame} {o : Omission} {s s' : Session σ ω}

/-- The activation inside of a branch that is skipped. -/
def Activation.inOmission (a : Activation) (c : CondFrame) (o : Omission) : Activation :=
  { a.push (.cond c) with omission := some o }

theorem startOmission_push (a : Activation) (c : CondFrame) (elseSeen : Bool) :
    (a.push (.cond c)).startOmission elseSeen =
      a.inOmission c { height := a.height + 1, elseSeen } := rfl

theorem seek_inOmission (a : Activation) (c : CondFrame) (o : Omission) (feed : Feed)
    (cursor : Nat) :
    (a.inOmission c o).seek feed cursor = (a.seek feed cursor).inOmission c o := by
  unfold Activation.inOmission Activation.push Activation.seek
  cases a.replays <;> rfl

theorem exec_perform_close {inherited : Option Countdown} {inv : Invocation}
    (h : inv.verb = .close) :
    (perform settings inherited (a.push (.cond c)) inv).exec s = (.ok (.next a), s) := by
  obtain ⟨verb, options, args, line⟩ := inv
  cases h
  rfl

variable (haligned : Aligned a.frames a.replays)

include haligned

theorem awaits_inOmission :
    Awaits (a.inOmission c o) rest fault ↔ Awaits a rest fault :=
  (⟨fun h => ⟨h.own, h.upcoming⟩, fun h => ⟨h.own, h.upcoming⟩⟩ :
    _ ↔ Awaits (a.push (.cond c)) rest fault).trans (Awaits.push_iff haligned _)

/-- A branch that is skipped, up to the line behind it. -/
theorem skip_branch (b : Block) (hawaits : Awaits a (b.lines ++ rest) fault) (s : Session σ ω) :
    ∃ feed cursor, Awaits (a.seek feed cursor) rest fault ∧
      Leads settings (.running (a.inOmission c o :: callers), s)
        (.running ((a.seek feed cursor).inOmission c o :: callers), s) := by
  have hskip : SkipsTo settings callers s (a.inOmission c o) o rest fault :=
    skip_block b (.cond haligned) rfl ((awaits_inOmission haligned).mpr hawaits)
  obtain ⟨feed, cursor, hafter, hleads⟩ := hskip
  rw [Activation.skipping_of_omission rfl, seek_inOmission] at hafter hleads
  exact ⟨feed, cursor,
    (awaits_inOmission (Activation.aligned_seek feed cursor haligned)).mp hafter, hleads⟩

/-- Skipping ends at a line that changes the surroundings of the branch to `out`. -/
theorem skip_to {line : Line} (out : Activation → Activation)
    (hawaits : Awaits a (line :: rest) fault)
    (hskip : ∀ feed cursor, (omitLine ((a.seek feed cursor).inOmission c o) o line).exec s =
      (.ok (.next (out (a.seek feed cursor))), s')) :
    ∃ feed cursor, Awaits (a.seek feed cursor) rest fault ∧
      Leads settings (.running (a.inOmission c o :: callers), s)
        (.running (out (a.seek feed cursor) :: callers), s') := by
  obtain ⟨feed, cursor, hfetch, hafter⟩ :=
    ((awaits_inOmission haligned).mpr hawaits : Awaits (a.inOmission c o) _ _).fetch (.cond haligned)
  rw [seek_inOmission] at hfetch hafter
  refine ⟨feed, cursor,
    (awaits_inOmission (Activation.aligned_seek feed cursor haligned)).mp hafter, .head ?_⟩
  rw [step_of_line hfetch, show ((a.seek feed cursor).inOmission c o).omission = some o from rfl]
  dsimp only
  rw [settle_bind_of_ok (exec_located_of_ok (hskip feed cursor))]
  exact .refl _

/-- Skipping ends at the line that closes the branch. -/
theorem skip_to_close (homit : a.omission = none) (close : Headed .close) (hn : o.nesting = 0)
    (hawaits : Awaits a (close.toLine :: rest) fault) (s : Session σ ω) :
    ∃ feed cursor, Awaits (a.seek feed cursor) rest fault ∧
      Leads settings (.running (a.inOmission c o :: callers), s)
        (.running (a.seek feed cursor :: callers),
          { s with journal := .omitFinished close.number Verb.close.name :: s.journal }) := by
  refine skip_to haligned (fun b => b) hawaits fun feed cursor => ?_
  have hout : { ((a.seek feed cursor).inOmission c o).pop with omission := none } =
      a.seek feed cursor := by
    rw [← homit, ← a.omission_seek feed cursor]
    rfl
  rw [omitLine_close _ s close.head (Mark.ofWord_name .close) hn, hout]

/-- Skipping ends at the `else` of the branch. -/
theorem skip_to_else (homit : a.omission = none) (otherwise : Headed .otherwise)
    (hn : o.nesting = 0) (hseen : o.elseSeen = false) (hheight : o.height = a.height + 1)
    (hawaits : Awaits a (otherwise.toLine :: rest) fault) (s : Session σ ω) :
    ∃ feed cursor, Awaits (a.seek feed cursor) rest fault ∧
      Leads settings (.running (a.inOmission c o :: callers), s)
        (.running ((a.seek feed cursor).push (.cond { c with elseSeen := true }) :: callers),
          { s with journal := .omitFinished otherwise.number Verb.otherwise.name :: s.journal }) := by
  refine skip_to haligned (·.push (.cond { c with elseSeen := true })) hawaits fun feed cursor => ?_
  have hout : { ((a.seek feed cursor).inOmission c o).markElse with omission := none } =
      (a.seek feed cursor).push (.cond { c with elseSeen := true }) := by
    rw [← homit, ← a.omission_seek feed cursor]
    rfl
  have htop : ((a.seek feed cursor).inOmission c o).height = o.height := by
    rw [hheight, ← a.height_seek feed cursor]
    rfl
  rw [omitLine_otherwise _ s otherwise.head hn hseen htop, hout]

/-- The line behind a branch that was run, which changes the surroundings of the branch to `out`. -/
theorem step_behind {verb : Verb} {line : Headed verb} (out : Activation → Activation)
    (hcontrol : verb.isControl = true) (homit : a.omission = none)
    (hkeeps : KeepsKeyword σ ω settings.shell line.toLine)
    (hawaits : Awaits a (line.toLine :: rest) fault)
    (hperform : ∀ feed cursor (inv : Invocation) (s : Session σ ω), inv.verb = verb →
      (perform settings (countdown? none callers) ((a.seek feed cursor).push (.cond c)) inv).exec s =
        (.ok (.next (out (a.seek feed cursor))), s)) (s : Session σ ω) :
    ∃ feed cursor, Awaits (a.seek feed cursor) rest fault ∧
      step settings (a.push (.cond c) :: callers) s =
        settle (a.push (.cond c) :: callers)
          (atLine settings (a.scope (countdown? none callers)) line.toLine pure >>= fun _ =>
            pure (0, out (a.seek feed cursor) :: callers)) s := by
  obtain ⟨feed, cursor, hfetch, hafter⟩ :=
    ((Awaits.push_iff haligned (.cond c)).mpr hawaits).fetch (.cond haligned)
  rw [Activation.seek_push_cond] at hfetch hafter
  refine ⟨feed, cursor,
    (Awaits.push_iff (Activation.aligned_seek feed cursor haligned) _).mp hafter, ?_⟩
  have hpure : ∀ (inv : Invocation) (s : Session σ ω), inv.verb = verb →
      inv.line = some line.number →
      (perform settings (countdown? none callers) ((a.seek feed cursor).push (.cond c)) inv).exec s =
        (pure inv >>= fun _ => pure (.next (out (a.seek feed cursor))) : Act σ ω Move).exec s :=
    fun inv s hverb _ => hperform feed cursor inv s hverb
  rw [step_of_heading hcontrol hfetch ((a.omission_seek feed cursor).trans homit) hkeeps hpure
    fun _ s => ⟨_, s, rfl⟩, Activation.scope_push_cond, Activation.scope_seek]
  rfl

end Branch

/-! ## First lines of statements -/

section Heads

/-- The move of a script that was asked to leave loops. -/
def leaveMove (r : Nat × Activation) : Move := if r.1 = 0 then .next r.2 else .unwind r.1

omit [Sink ω] in
theorem leaveLoops_follow (a : Activation) (levels : Nat) :
    ((leaveLoops (countdown? none callers) a levels a.replays >>= fun r => pure (leaveMove r)) >>=
      follow none callers : Act σ ω _) = unwind none levels (a :: callers) := by
  rw [unwind, bind_assoc]
  refine bind_congr fun r => ?_
  obtain ⟨left, a'⟩ := r
  cases left with
  | zero => rfl
  | succ left => rfl

omit [Host σ] [Sink ω] in
theorem takeBreak_pos {sc : Scope} {inv : Invocation} {levels : Nat} {s s' : Session σ ω}
    (h : (takeBreak sc inv).exec s = (.ok levels, s')) : 0 < levels := by
  unfold takeBreak at h
  obtain ⟨n, s₁, hlevels, h₁⟩ := Act.exec_bind_eq_ok.mp h
  split at h₁
  · cases h₁
  · cases h₁
    exact breakLevels_pos hlevels

theorem replaying_push (a : Activation) (f : LoopFrame) (lines : List Line) :
    (a.push (.loop f)).replaying f lines = a.inLoop { f with body := { lines } } 0 := by
  simp [Activation.replaying, Activation.setLoopAt, Activation.push, Activation.height,
    Activation.inLoop]

variable (haligned : Aligned a.frames a.replays) (homit : a.omission = none)

include haligned homit

/-- The line of an `if`: the branch is entered, or entered to be skipped. -/
theorem step_cond (head : Headed .cond) (hkeeps : KeepsKeyword σ ω settings.shell head.toLine)
    (hawaits : Awaits a (head.toLine :: rest) fault) (s : Session σ ω) :
    ∃ feed cursor, Awaits (a.seek feed cursor) rest fault ∧
      step settings (a :: callers) s =
        settle (a :: callers)
          (atLine settings (a.scope (countdown? none callers)) head.toLine
            (openCond settings (a.scope (countdown? none callers))) >>= fun truth =>
            pure (0, (if truth then (a.seek feed cursor).push (.cond { line := some head.number })
              else (a.seek feed cursor).inOmission { line := some head.number }
                { height := a.height + 1, elseSeen := false }) :: callers)) s := by
  obtain ⟨feed, cursor, hfetch, hafter⟩ := hawaits.fetch haligned
  refine ⟨feed, cursor, hafter, ?_⟩
  have hperform : ∀ (inv : Invocation) (s : Session σ ω), inv.verb = .cond →
      inv.line = some head.number →
      (perform settings (countdown? none callers) (a.seek feed cursor) inv).exec s =
        (openCond settings (a.scope (countdown? none callers)) inv >>= fun truth =>
          pure (.next (if truth then (a.seek feed cursor).push (.cond { line := some head.number })
              else (a.seek feed cursor).inOmission { line := some head.number }
                { height := a.height + 1, elseSeen := false })) : Act σ ω Move).exec s := by
    rintro ⟨verb, options, args, line⟩ s rfl hline
    cases hline
    change (startCond settings (a.seek feed cursor) _).exec s = _
    simp only [startCond, openCond, bind_assoc, pure_bind, startOmission_push,
      a.height_seek feed cursor]
    rfl
  rw [step_of_heading rfl hfetch ((a.omission_seek feed cursor).trans homit) hkeeps hperform
    fun _ s => ⟨_, s, rfl⟩]
  rw [Activation.scope_seek]
  rfl

/-- A `break` leaves loops of the script. -/
theorem step_break (line : Headed .leave) (hkeeps : KeepsKeyword σ ω settings.shell line.toLine)
    (hawaits : Awaits a (line.toLine :: rest) fault) (s : Session σ ω) :
    ∃ feed cursor, step settings (a :: callers) s =
        settle (a :: callers)
          (atLine settings (a.scope (countdown? none callers)) line.toLine
            (takeBreak (a.scope (countdown? none callers))) >>= fun levels =>
            unwind none levels (a.seek feed cursor :: callers)) s := by
  obtain ⟨feed, cursor, hfetch, -⟩ := hawaits.fetch haligned
  refine ⟨feed, cursor, ?_⟩
  have hloops : (a.seek feed cursor).loops.length =
      (a.scope (countdown? none callers)).loops.length := by
    rw [← a.scope_seek feed cursor, Activation.scope, List.length_map]
  have hperform : ∀ (inv : Invocation) (s : Session σ ω), inv.verb = .leave →
      inv.line = some line.number →
      (perform settings (countdown? none callers) (a.seek feed cursor) inv).exec s =
        (takeBreak (a.scope (countdown? none callers)) inv >>= fun levels =>
          leaveLoops (countdown? none callers) (a.seek feed cursor) levels
            (a.seek feed cursor).replays >>= fun r => pure (leaveMove r) : Act σ ω Move).exec s := by
    rintro ⟨verb, options, args, number⟩ s rfl -
    change (startBreak _ (a.seek feed cursor) _).exec s = _
    rw [startBreak, takeBreak, bind_assoc, Act.exec_bind, Act.exec_bind]
    rcases (breakLevels _).exec s with ⟨e | levels, s₁⟩
    · rfl
    · dsimp only
      rw [hloops]
      split
      · rfl
      · rfl
  have hnext : ∀ (levels : Nat) (s : Session σ ω), ∃ m s',
      (leaveLoops (countdown? none callers) (a.seek feed cursor) levels
        (a.seek feed cursor).replays >>= fun r => pure (leaveMove r) : Act σ ω Move).exec s =
          (.ok m, s') := by
    intro levels s
    obtain ⟨r, s', hleave⟩ := exec_leaveLoops (countdown? none callers)
      (a.seek feed cursor) levels (a.seek feed cursor).replays s
    exact ⟨_, s', Act.exec_bind_of_ok hleave⟩
  rw [step_of_heading rfl hfetch ((a.omission_seek feed cursor).trans homit) hkeeps hperform hnext,
    Activation.scope_seek]
  simp only [leaveLoops_follow]

/-- An `exit` leaves the script. -/
theorem step_exit (line : Headed .exit) (hkeeps : KeepsKeyword σ ω settings.shell line.toLine)
    (hawaits : Awaits a (line.toLine :: rest) fault) (s : Session σ ω) :
    step settings (a :: callers) s =
      settle (a :: callers)
        (atLine settings (a.scope (countdown? none callers)) line.toLine pure >>= fun _ =>
          exitScript (countdown? none callers) a >>= follow none callers) s := by
  obtain ⟨feed, cursor, hfetch, -⟩ := hawaits.fetch haligned
  have hperform : ∀ (inv : Invocation) (s : Session σ ω), inv.verb = .exit →
      inv.line = some line.number →
      (perform settings (countdown? none callers) (a.seek feed cursor) inv).exec s =
        (pure inv >>= fun _ => exitScript (countdown? none callers) a : Act σ ω Move).exec s := by
    rintro ⟨verb, options, args, number⟩ s rfl -
    change (exitScript _ (a.seek feed cursor)).exec s = _
    rw [exitScript_congr (a.identity_seek feed cursor)]
    rfl
  have hnext : ∀ (_ : Invocation) (s : Session σ ω), ∃ m s',
      (exitScript (countdown? none callers) a : Act σ ω Move).exec s = (.ok m, s') := by
    intro _ s
    exact ⟨.leave, exec_exitScript _ a s⟩
  rw [step_of_heading rfl hfetch ((a.omission_seek feed cursor).trans homit) hkeeps hperform hnext,
    Activation.scope_seek]

/-- The line of a `loop`: the body is collected and entered. -/
theorem step_loop (head : Headed .loop) (body : Block) (close : Headed .close)
    (hkeeps : KeepsKeyword σ ω settings.shell head.toLine)
    (hawaits : Awaits a (head.toLine :: (body.lines ++ close.toLine :: rest)) fault)
    (s : Session σ ω) :
    ∃ feed cursor, Awaits (a.seek feed cursor) rest fault ∧
      step settings (a :: callers) s =
        settle (a :: callers)
          (atLine settings (a.scope (countdown? none callers)) head.toLine
            (openLoop settings (a.scope (countdown? none callers)) body.lines.length) >>= fun c =>
            pure (0, (a.seek feed cursor).inLoop (loopFrame c (some head.number) body 0) 0 ::
              callers)) s := by
  obtain ⟨feed₁, cursor₁, hfetch, hbody⟩ := hawaits.fetch haligned
  have haligned₁ := Activation.aligned_seek feed₁ cursor₁ haligned
  obtain ⟨feed, cursor, hskip, hafter⟩ := hbody.skipPast haligned₁
  rw [Activation.seek_seek] at hafter
  simp only [Activation.seek_seek] at hskip
  refine ⟨feed, cursor, hafter, ?_⟩
  have hcollect : ∀ (f : LoopFrame) (s : Session σ ω),
      (collect ((a.seek feed₁ cursor₁).push (.loop f))).exec s =
        (.ok (body.lines, (a.seek feed cursor).push (.loop f)), s) := by
    intro f s
    rw [collect, Act.exec_bind_of_ok (Act.exec_get s)]
    dsimp only
    rw [Awaits.upcoming_push haligned₁, hbody.upcoming s.input, takeBody_block]
    dsimp only
    rw [hskip]
    rfl
  have hperform : ∀ (inv : Invocation) (s : Session σ ω), inv.verb = .loop →
      inv.line = some head.number →
      (perform settings (countdown? none callers) (a.seek feed₁ cursor₁) inv).exec s =
        (openLoop settings (a.scope (countdown? none callers)) body.lines.length inv >>= fun c =>
          pure (.next ((a.seek feed cursor).inLoop (loopFrame c (some head.number) body 0) 0)) :
            Act σ ω Move).exec s := by
    rintro ⟨verb, options, args, number⟩ s rfl hline
    cases hline
    change (startLoop settings _ (a.seek feed₁ cursor₁) _).exec s = _
    rw [startLoop, openLoop, bind_assoc, Act.exec_bind, Act.exec_bind]
    rcases (loopLimits _).exec s with ⟨e | ⟨count, time⟩, s₁⟩
    · rfl
    · dsimp only
      rw [bind_assoc, Act.exec_bind_of_ok (exec_readClock s₁),
        Act.exec_bind_of_ok (exec_readClock s₁), bind_assoc, Act.exec_bind, Act.exec_bind,
        show (a.seek feed₁ cursor₁).height = (a.scope (countdown? none callers)).height from
          a.height_seek feed₁ cursor₁]
      rcases (checkDepth settings _ _).exec _ with ⟨e | _, s₂⟩
      · rfl
      · dsimp only
        rw [Act.exec_bind_of_ok (hcollect _ s₂)]
        dsimp only
        rw [bind_assoc, Act.exec_bind_of_ok (Act.exec_note _ _),
          Act.exec_bind_of_ok (Act.exec_note _ _), bind_assoc]
        have hentered := replaying_push (a.seek feed cursor)
          { remaining := count, deadline := time.map ((Clock.read s₁.host).1 + ·),
            line := some head.number } body.lines
        unfold Activation.replaying at hentered
        dsimp only at hentered
        rw [hentered]
        rfl
  rw [step_of_heading rfl hfetch ((a.omission_seek feed₁ cursor₁).trans homit) hkeeps hperform
    fun _ s => ⟨_, s, rfl⟩, Activation.scope_seek]
  rfl

/-- A line without a keyword is executed, or calls a script. -/
theorem step_plain (line : Plain) (hkeeps : KeepsKeyword σ ω settings.shell line.toLine)
    (hawaits : Awaits a (line.toLine :: rest) fault) (s : Session σ ω) :
    ∃ feed cursor, Awaits (a.seek feed cursor) rest fault ∧
      step settings (a :: callers) s =
        settle (a :: callers)
          (startPlain settings (a.scope (countdown? none callers)) line.toLine >>= fun callee =>
            follow none callers (plainMove (a.seek feed cursor) callee)) s := by
  obtain ⟨feed, cursor, hfetch, hafter⟩ := hawaits.fetch haligned
  refine ⟨feed, cursor, hafter, ?_⟩
  rw [step_of_line hfetch, (a.omission_seek feed cursor).trans homit]
  refine settle_congr ?_
  have hline := exec_executeLine_plain line (a.seek feed cursor) (countdown? none callers) hkeeps s
  have hlocated : (located (a.seek feed cursor).source (some line.number)
      (executeLine settings (countdown? none callers) (a.seek feed cursor) line.toLine)).exec s =
      (startPlain settings (a.scope (countdown? none callers)) line.toLine >>= fun callee =>
        pure (plainMove (a.seek feed cursor) callee)).exec s := by
    have hpure : ∀ (callee : Option Activation) (s : Session σ ω), ∃ m s',
        (pure (plainMove (a.seek feed cursor) callee) : Act σ ω Move).exec s = (.ok m, s') :=
      fun _ s => ⟨_, s, rfl⟩
    rw [startPlain, ← a.scope_seek feed cursor, ← exec_located_bind hpure, exec_located,
      exec_located, hline]
    rfl
  dsimp only
  rw [Act.exec_bind, hlocated, ← Act.exec_bind, bind_assoc]
  rfl

end Heads

/-! ## Blocks -/

/-- Whatever its surroundings, the machine makes of the lines of a block what the interpretation
makes of the block. -/
def Simulated (σ ω : Type) [Host σ] [Sink ω] (settings : Settings) (callers : List Activation)
    (bound : Nat) (b : Block) : Prop :=
  ∀ {a : Activation} {rest : List Line} {fault : Option DecodeFault} (s : Session σ ω),
    Aligned a.frames a.replays → a.omission = none → Awaits a (b.lines ++ rest) fault →
      Matches settings callers bound a rest fault (.running (a :: callers), s)
        ((b.interpret settings bound (a.scope (countdown? none callers))).exec s)

variable {close : Headed .close} {cursor : Nat}

namespace Simulated

variable {bound : Nat} {b body yes no next : Block} {feed : Feed} {c : CondFrame}

section Surroundings

variable (haligned : Aligned a.frames a.replays) (homit : a.omission = none)

include haligned homit

/-- The block may come later in the lines of its surroundings. -/
theorem later (h : Simulated σ ω settings callers bound b)
    (hawaits : Awaits (a.seek feed cursor) (b.lines ++ rest) fault) (s : Session σ ω) :
    Matches settings callers bound a rest fault (.running (a.seek feed cursor :: callers), s)
      ((b.interpret settings bound (a.scope (countdown? none callers))).exec s) := by
  have hlater := h s (Activation.aligned_seek feed cursor haligned)
    ((a.omission_seek feed cursor).trans homit) hawaits
  rw [a.scope_seek feed cursor] at hlater
  exact hlater.of_seek haligned feed cursor

/-- The block of a branch, in the surroundings of the branch. -/
theorem inBranch (h : Simulated σ ω settings callers bound b)
    (hawaits : Awaits (a.seek feed cursor) (b.lines ++ rest) fault) (c : CondFrame)
    (s : Session σ ω) :
    Matches settings callers bound ((a.seek feed cursor).push (.cond c)) rest fault
      (.running ((a.seek feed cursor).push (.cond c) :: callers), s)
      ((b.interpret settings bound (a.scope (countdown? none callers)).inCond).exec s) := by
  have haligned' := Activation.aligned_seek feed cursor haligned
  have homit' : ((a.seek feed cursor).push (.cond c)).omission = none :=
    (a.omission_seek feed cursor).trans homit
  have hrun := h s (.cond haligned') homit' ((Awaits.push_iff haligned' (.cond c)).mpr hawaits)
  rwa [Activation.scope_push_cond, a.scope_seek] at hrun

/-- A branch that is run, up to the line behind it, which changes the surroundings to `out`. -/
theorem ran {verb : Verb} {line : Headed verb} (out : Activation → Activation)
    {after : List Line} {act : Act σ ω Signal} (hcontrol : verb.isControl = true)
    (hkeeps : KeepsKeyword σ ω settings.shell line.toLine)
    (hbody : Simulated σ ω settings callers bound body)
    (hawaits : Awaits (a.seek feed cursor) (body.lines ++ line.toLine :: after) fault)
    (hperform : ∀ feed cursor (inv : Invocation) (s : Session σ ω), inv.verb = verb →
      (perform settings (countdown? none callers) ((a.seek feed cursor).push (.cond c)) inv).exec s =
        (.ok (.next (out (a.seek feed cursor))), s))
    (hnext : ∀ feed cursor s, Awaits (a.seek feed cursor) after fault →
      Matches settings callers bound a rest fault (.running (out (a.seek feed cursor) :: callers), s)
        (act.exec s)) (s : Session σ ω) :
    Matches settings callers bound a rest fault
      (.running ((a.seek feed cursor).push (.cond c) :: callers), s)
      ((Signal.andThen
        (body.interpret settings bound (a.scope (countdown? none callers)).inCond) do
          let _ ← atLine settings (a.scope (countdown? none callers)) line.toLine pure
          act).exec s) := by
  have hleaves : Leaves σ ω callers ((a.seek feed cursor).push (.cond c)) a :=
    (Leaves.push_cond (Activation.aligned_seek feed cursor haligned) c).trans
      (.seek haligned feed cursor)
  refine .andThen hleaves (inBranch haligned homit hbody hawaits c s)
    fun feed₁ cursor₁ s₁ hline => ?_
  rw [Activation.seek_push_cond, Activation.seek_seek] at hline ⊢
  have haligned₁ := Activation.aligned_seek feed₁ cursor₁ haligned
  obtain ⟨feed₂, cursor₂, hafter, hstep⟩ := step_behind haligned₁ out hcontrol
    ((a.omission_seek feed₁ cursor₁).trans homit) hkeeps ((Awaits.push_iff haligned₁ _).mp hline)
    (fun feed cursor => a.seek_seek feed₁ feed cursor₁ cursor ▸ hperform feed cursor) s₁
  rw [Activation.seek_seek] at hafter hstep
  rw [a.scope_seek] at hstep
  have hcalled : ((a.seek feed₁ cursor₁).push (.cond c)).calledFrom = a.calledFrom :=
    Activation.calledFrom_of_identity (a.identity_seek feed₁ cursor₁)
  exact .of_step hcalled hstep fun _ s₂ _ => hnext feed₂ cursor₂ s₂ hafter

/-- A branch that is skipped, up to the line that closes it. -/
theorem skipped {o : Omission} (hn : o.nesting = 0)
    (hnext : Simulated σ ω settings callers bound next)
    (hawaits : Awaits (a.seek feed cursor)
      (body.lines ++ close.toLine :: (next.lines ++ rest)) fault) (s : Session σ ω) :
    Matches settings callers bound a rest fault
      (.running ((a.seek feed cursor).inOmission c o :: callers), s)
      ((do
        Act.note (.omitFinished close.number Verb.close.name)
        next.interpret settings bound (a.scope (countdown? none callers))).exec s) := by
  have haligned' := Activation.aligned_seek feed cursor haligned
  obtain ⟨feed₁, cursor₁, hclose, hskip⟩ := skip_branch haligned' body hawaits s
  rw [Activation.seek_seek] at hclose hskip
  obtain ⟨feed₂, cursor₂, hafter, hleads⟩ := skip_to_close
    (Activation.aligned_seek feed₁ cursor₁ haligned) ((a.omission_seek feed₁ cursor₁).trans homit)
    close hn hclose s
  rw [Activation.seek_seek] at hafter hleads
  rw [Act.exec_bind_of_ok (Act.exec_note _ s)]
  exact (later haligned homit hnext hafter _).of_leads (hskip.trans hleads)

end Surroundings

theorem done : Simulated σ ω settings callers bound .done := by
  intro a rest fault s haligned homit hawaits
  obtain ⟨feed, cursor, hself⟩ := Activation.exists_seek_self haligned
  refine ⟨feed, cursor, ?_⟩
  rw [hself]
  exact ⟨hawaits, .refl _⟩

theorem plain {line : Plain} (hkeeps : KeepsKeyword σ ω settings.shell line.toLine)
    (hnext : Simulated σ ω settings callers bound next) :
    Simulated σ ω settings callers bound (.plain line next) := by
  intro a rest fault s haligned homit hawaits
  obtain ⟨feed, cursor, hafter, hstep⟩ := step_plain haligned homit line hkeeps hawaits s
  rw [Block.interpret]
  refine .of_step rfl hstep fun callee s' hcallee => ?_
  cases callee with
  | none => exact later haligned homit hnext hafter s'
  | some callee =>
      have hcalled := calledFrom_executeText (exec_located_eq_ok.mp hcallee)
      have hrun := runCalled_matches settings callers
        (Activation.aligned_seek feed cursor haligned) hafter bound callee [] hcalled s'
      rw [countdown?, ← Activation.countdown?_scope, a.source_seek, a.scope_seek] at hrun
      refine .andThen (.seek haligned feed cursor) hrun fun feed' cursor' s'' hlater => ?_
      rw [Activation.seek_seek] at hlater ⊢
      exact later haligned homit hnext hlater s''

theorem loop {head : Headed .loop} (hkeeps : KeepsKeyword σ ω settings.shell head.toLine)
    (hbody : Simulated σ ω settings callers bound body)
    (hnext : Simulated σ ω settings callers bound next) :
    Simulated σ ω settings callers bound (.loop head body close next) := by
  intro a rest fault s haligned homit hawaits
  rw [Block.lines, List.cons_append, List.append_assoc, List.cons_append] at hawaits
  obtain ⟨feed, cursor, hafter, hstep⟩ :=
    step_loop haligned homit head body close hkeeps hawaits s
  have haligned' := Activation.aligned_seek feed cursor haligned
  have homit' := (a.omission_seek feed cursor).trans homit
  rw [Block.interpret]
  refine .of_step rfl hstep fun c s' _ => ?_
  -- one iteration is the body, in the surroundings of the loop
  have hiteration : ∀ c iterations (s : Session σ ω),
      Matches settings callers bound
        ((a.seek feed cursor).inLoop (loopFrame c (some head.number) body 0) iterations) [] none
        (.running ((a.seek feed cursor).inLoop (loopFrame c (some head.number) body 0) iterations ::
          callers), s)
        ((body.interpret settings bound
          ((a.scope (countdown? none callers)).inLoop c)).exec s) := by
    intro c iterations s
    have hlines := awaits_inLoop haligned' (loopFrame c (some head.number) body 0) iterations
    rw [← a.scope_seek feed cursor]
    refine hbody s (Activation.aligned_inLoop haligned' _ iterations) homit' ?_
    rw [List.append_nil]
    exact hlines
  have hloop := iterate_matches haligned' homit' hafter hiteration bound (Nat.le_refl bound) 0 c s'
  rw [countdown?, ← Activation.countdown?_scope, a.scope_seek] at hloop
  refine .andThen (.seek haligned feed cursor) hloop fun feed' cursor' s'' hlater => ?_
  rw [Activation.seek_seek] at hlater ⊢
  exact later haligned homit hnext hlater s''

theorem cond {head : Headed .cond} (hhead : KeepsKeyword σ ω settings.shell head.toLine)
    (hclose : KeepsKeyword σ ω settings.shell close.toLine)
    (hyes : Simulated σ ω settings callers bound yes)
    (hnext : Simulated σ ω settings callers bound next) :
    Simulated σ ω settings callers bound (.cond head yes close next) := by
  intro a rest fault s haligned homit hawaits
  rw [Block.lines, List.cons_append, List.append_assoc, List.cons_append] at hawaits
  obtain ⟨feed, cursor, hafter, hstep⟩ := step_cond haligned homit head hhead hawaits s
  rw [Block.interpret]
  refine .of_step rfl hstep fun truth s' _ => ?_
  cases truth with
  | true =>
      exact ran haligned homit (fun b => b) rfl hclose hyes hafter (fun _ _ _ _ => exec_perform_close)
        (fun _ _ s hlater => later haligned homit hnext hlater s) s'
  | false => exact skipped haligned homit rfl hnext hafter s'

theorem branch {head : Headed .cond} {otherwise : Headed .otherwise}
    (hhead : KeepsKeyword σ ω settings.shell head.toLine)
    (hotherwise : KeepsKeyword σ ω settings.shell otherwise.toLine)
    (hclose : KeepsKeyword σ ω settings.shell close.toLine)
    (hyes : Simulated σ ω settings callers bound yes)
    (hno : Simulated σ ω settings callers bound no)
    (hnext : Simulated σ ω settings callers bound next) :
    Simulated σ ω settings callers bound (.branch head yes otherwise no close next) := by
  intro a rest fault s haligned homit hawaits
  rw [Block.lines, List.cons_append, List.append_assoc, List.cons_append, List.append_assoc,
    List.cons_append] at hawaits
  obtain ⟨feed, cursor, hafter, hstep⟩ := step_cond haligned homit head hhead hawaits s
  have haligned' := Activation.aligned_seek feed cursor haligned
  rw [Block.interpret]
  refine .of_step rfl hstep fun truth s' _ => ?_
  cases truth with
  | true =>
      refine ran haligned homit (·.inOmission { line := some head.number, elseSeen := true }
          { height := a.height + 1, elseSeen := true }) rfl hotherwise hyes hafter ?_
        (fun feed cursor s hskipped => skipped haligned homit rfl hnext hskipped s) s'
      rintro feed cursor ⟨verb, options, args, line⟩ s rfl
      rw [← a.height_seek feed cursor]
      rfl
  | false =>
      obtain ⟨feed₁, cursor₁, helse, hskip⟩ := skip_branch haligned' yes hafter s'
      rw [Activation.seek_seek] at helse hskip
      have hheight : ({ height := a.height + 1, elseSeen := false } : Omission).height =
          (a.seek feed₁ cursor₁).height + 1 :=
        congrArg (· + 1) (a.height_seek feed₁ cursor₁).symm
      obtain ⟨feed₂, cursor₂, hno', hleads⟩ := skip_to_else
        (Activation.aligned_seek feed₁ cursor₁ haligned)
        ((a.omission_seek feed₁ cursor₁).trans homit) otherwise rfl rfl hheight helse s'
      rw [Activation.seek_seek] at hno' hleads
      refine Matches.of_leads (hskip.trans hleads) ?_
      change Matches settings callers bound a rest fault _ ((Act.note _ >>= fun _ => _).exec s')
      rw [Act.exec_bind_of_ok (Act.exec_note _ s')]
      exact ran haligned homit (fun b => b) rfl hclose hno hno' (fun _ _ _ _ => exec_perform_close)
        (fun _ _ s hlater => later haligned homit hnext hlater s) _

theorem leave {line : Headed .leave} (hkeeps : KeepsKeyword σ ω settings.shell line.toLine) :
    Simulated σ ω settings callers bound (.leave line next) := by
  intro a rest fault s haligned homit hawaits
  obtain ⟨feed, cursor, hstep⟩ := step_break haligned homit line hkeeps hawaits s
  rw [Block.interpret]
  refine .of_step rfl hstep fun levels s' hlevels => ?_
  obtain ⟨inv, s₁, -, htake⟩ := Act.exec_bind_eq_ok.mp (exec_located_eq_ok.mp hlevels)
  have hpos := takeBreak_pos htake
  obtain ⟨k, rfl⟩ := Nat.exists_eq_succ_of_ne_zero (Nat.ne_of_gt hpos)
  refine ⟨hpos, ?_⟩
  rw [(Leaves.seek haligned feed cursor).unwind]
  exact .refl _

theorem exit {line : Headed .exit} (hkeeps : KeepsKeyword σ ω settings.shell line.toLine) :
    Simulated σ ω settings callers bound (.exit line next) := by
  intro a rest fault s haligned homit hawaits
  rw [Block.interpret]
  exact .of_step rfl (step_exit haligned homit line hkeeps hawaits s) fun _ s' _ => .refl _

end Simulated

/-- Every block is simulated whose lines keep their keywords when they are split. -/
theorem interpret_matches (callers : List Activation) (bound : Nat) (b : Block)
    (hkeeps : ∀ line ∈ b.lines, KeepsKeyword σ ω settings.shell line) :
    Simulated σ ω settings callers bound b := by
  induction b with
  | done => exact Simulated.done
  | plain line next ih =>
      obtain ⟨hline, hlines⟩ := List.forall_mem_cons.mp hkeeps
      exact Simulated.plain hline (ih hlines)
  | loop head body close next ihBody ihNext =>
      obtain ⟨hhead, hlines⟩ := List.forall_mem_cons.mp hkeeps
      obtain ⟨hbody, hrest⟩ := List.forall_mem_append.mp hlines
      obtain ⟨-, hnext⟩ := List.forall_mem_cons.mp hrest
      exact Simulated.loop hhead (ihBody hbody) (ihNext hnext)
  | cond head yes close next ihYes ihNext =>
      obtain ⟨hhead, hlines⟩ := List.forall_mem_cons.mp hkeeps
      obtain ⟨hyes, hrest⟩ := List.forall_mem_append.mp hlines
      obtain ⟨hclose, hnext⟩ := List.forall_mem_cons.mp hrest
      exact Simulated.cond hhead hclose (ihYes hyes) (ihNext hnext)
  | branch head yes otherwise no close next ihYes ihNo ihNext =>
      obtain ⟨hhead, hlines⟩ := List.forall_mem_cons.mp hkeeps
      obtain ⟨hyes, hrest⟩ := List.forall_mem_append.mp hlines
      obtain ⟨hotherwise, hlines'⟩ := List.forall_mem_cons.mp hrest
      obtain ⟨hno, hrest'⟩ := List.forall_mem_append.mp hlines'
      obtain ⟨hclose, hnext⟩ := List.forall_mem_cons.mp hrest'
      exact Simulated.branch hhead hotherwise hclose (ihYes hyes) (ihNo hno) (ihNext hnext)
  | leave line next ih => exact Simulated.leave (List.forall_mem_cons.mp hkeeps).1
  | exit line next ih => exact Simulated.exit (List.forall_mem_cons.mp hkeeps).1

/-! ## Whole scripts -/

section Whole

variable {source : String} {feed : Feed} {bound : Nat} {c : Conf σ ω}

/-- A machine that has run the block of a whole script ends as the block did. -/
theorem Matches.concluded {r : Except (Trouble Failure) Signal × Session σ ω}
    (h : Matches settings [] bound (freshScript source 0 feed) [] none c r) :
    match concluded? source r with
    | some (outcome, s) => Leads settings c (.done outcome, s)
    | none => Busy settings bound c := by
  obtain ⟨(f | crash) | signal, s⟩ := r
  · have hleads : Leads settings c (settle [freshScript source 0 feed] (throw (.fault f)) s) := h
    have habandon : (abandon none f [freshScript source 0 feed] : Act σ ω _).exec s =
        (.ok f, ((publish none).exec s).2) := by
      rw [abandon_singleton, Act.exec_bind_of_ok (exec_publish _ _), Act.exec_pure]
    rwa [settle_of_fault (Act.exec_throw _ _) habandon] at hleads
  · have hleads : Leads settings c (settle [freshScript source 0 feed] (throw (.crash crash)) s) :=
      h
    rwa [settle_of_crash (Act.exec_throw _ _)] at hleads
  · cases signal with
    | next =>
        obtain ⟨feed', cursor, hawaits, hleads⟩ := h
        obtain ⟨feed₁, cursor₁, hfetch⟩ := hawaits.fetch_finished .nil
        refine hleads.trans (.head ?_)
        rw [step_of_script_end hfetch rfl]
        exact .refl _
    | leave levels =>
        obtain ⟨hpos, hleads⟩ := h
        obtain ⟨k, rfl⟩ := Nat.exists_eq_succ_of_ne_zero (Nat.ne_of_gt hpos)
        exact hleads
    | exit => exact h
    | unfinished => exact h

/-- A script that was not begun awaits its lines. -/
theorem awaits_freshScript {raws : List RawLine} {lines : List Line}
    (h : Script.readLines raws = (lines, fault)) :
    Awaits (freshScript source 0 { pending := some raws }) lines fault :=
  ⟨fun _ => rfl, fun _ => h⟩

/-- The interpretation of a whole script follows the machine. -/
theorem outcome_matches {b : Block} {raws : List RawLine}
    (hlines : Script.readLines raws = (b.lines, none))
    (hkeeps : ∀ line ∈ b.lines, KeepsKeyword σ ω settings.shell line) (source : String)
    (bound : Nat) (s : Session σ ω) :
    match b.outcome? settings bound source s with
    | some (outcome, s') =>
      Leads settings ((Launch.script source { pending := some raws }).start settings s)
        (.done outcome, s')
    | none =>
      Busy settings bound ((Launch.script source { pending := some raws }).start settings s) := by
  have hawaits : Awaits (freshScript source 0 { pending := some raws }) (b.lines ++ []) none := by
    rw [List.append_nil]
    exact awaits_freshScript hlines
  exact (interpret_matches [] bound b hkeeps _ .nil rfl hawaits).concluded

/-- The machine, given the lines of a block, ends exactly as the interpretation of the block does:
with the same outcome and in the same session, the journal of what was executed included.  A bounded
run gives that answer as soon as its bound is large enough, and no other but for want of steps. -/
theorem interpret_iff_run (settings : Settings) (b : Block) (raws : List RawLine)
    (hlines : Script.readLines raws = (b.lines, none))
    (hkeeps : ∀ line ∈ b.lines, KeepsKeyword σ ω settings.shell line) (source : String)
    (s : Session σ ω) (r : Outcome × Session σ ω) :
    ((∃ bound, b.outcome? settings bound source s = some r) ↔
      Leads settings ((Launch.script source { pending := some raws }).start settings s)
        (.done r.1, r.2)) ∧
    ((∃ bound, b.outcome? settings bound source s = some r) →
      ∃ enough, ∀ fuel, enough ≤ fuel →
        runScript settings fuel source { pending := some raws } s = r) ∧
    (∀ fuel, runScript settings fuel source { pending := some raws } s = r →
      r.1 ≠ .crash .endless → ∃ bound, b.outcome? settings bound source s = some r) := by
  have hsound : (∃ bound, b.outcome? settings bound source s = some r) →
      Leads settings ((Launch.script source { pending := some raws }).start settings s)
        (.done r.1, r.2) := by
    rintro ⟨bound, hr⟩
    have hmatches := outcome_matches hlines hkeeps source bound s
    rwa [hr] at hmatches
  have hcomplete : Leads settings
      ((Launch.script source { pending := some raws }).start settings s) (.done r.1, r.2) →
      ∃ bound, b.outcome? settings bound source s = some r := by
    rintro hend
    obtain ⟨n, hn⟩ := id hend
    -- a run that ends within `n` steps is not busy for `n` steps
    have hmatches := outcome_matches hlines hkeeps source n s
    rcases hr : b.outcome? settings n source s with _ | ⟨outcome, s'⟩
    · rw [hr] at hmatches
      obtain ⟨activations, s', hbusy⟩ := hmatches
      rw [hn] at hbusy
      cases hbusy
    · rw [hr] at hmatches
      obtain ⟨rfl, rfl⟩ := hend.done_unique hmatches
      exact ⟨n, hr⟩
  refine ⟨⟨hsound, hcomplete⟩, fun hr => ?_, fun fuel hr hends => ?_⟩
  · obtain ⟨enough, h⟩ := answer_of_leads (hsound hr)
    exact ⟨enough, fun fuel hle => (runScript_eq fuel source _ s).trans (h fuel hle)⟩
  · rw [runScript_eq] at hr
    exact hcomplete (leads_of_answer hr hends)

end Whole

/-- A line of a verb that is no control flow. -/
def Plain.ofVerb (line : Line) (verb : Verb) (hverb : verb.isControl = false)
    (head : Word.firstWord line.text = .ok (some verb.name)) : Plain where
  toLine := line
  word := some verb.name
  head := head
  plain := by
    intro other hother heq
    have hname := Verb.ofName?_name verb
    rw [Option.some.inj heq, Verb.ofName?_name] at hname
    cases hname
    rw [hverb] at hother
    cases hother

/-- A loop that is left in its first iteration, from inside of a branch. -/
def leftLoop : Block :=
  .loop ⟨⟨1, "loop 3"⟩, rfl⟩
    (.branch ⟨⟨2, "if 1 -eq 1"⟩, rfl⟩
      (.plain (.ofVerb ⟨3, "echo kept"⟩ .echo rfl rfl) (.leave ⟨⟨4, "break"⟩, rfl⟩ .done))
      ⟨⟨5, "else"⟩, rfl⟩
      (.plain (.ofVerb ⟨7, "echo skipped"⟩ .echo rfl rfl) .done)
      ⟨⟨8, "end"⟩, rfl⟩ .done)
    ⟨⟨9, "end"⟩, rfl⟩
    (.plain (.ofVerb ⟨10, "echo after"⟩ .echo rfl rfl) .done)

/-- The physical lines of `leftLoop`. -/
def leftLoopSource : List RawLine :=
  [.text "loop 3\n", .text "  if 1 -eq 1\n", .text "    echo kept\n", .text "    break\n",
    .text "  else\n", .text "    # never reached\n", .text "    echo skipped\n", .text "  end\n",
    .text "end\n", .text "echo after\n"]

theorem interpret_iff_run_leftLoop :
    Script.readLines leftLoopSource = (leftLoop.lines, none) ∧
    (∀ line ∈ leftLoop.lines,
      KeepsKeyword Sandbox Device.Recorder ({} : Settings).shell line) ∧
    (∀ (s : Session Sandbox Device.Recorder) (r : Outcome × Session Sandbox Device.Recorder),
      (∃ bound, leftLoop.outcome? {} bound "left" s = some r) ↔
        Leads {} ((Launch.script "left" { pending := some leftLoopSource }).start {} s)
          (.done r.1, r.2)) ∧
    ∃ s', leftLoop.outcome? {} 2 "left" idle = some (.success, s') ∧
      s'.output = "kept\nafter\n" ∧
      Leads {} ((Launch.script "left" { pending := some leftLoopSource }).start {} idle)
        (.done .success, s') := by
  have hlines : Script.readLines leftLoopSource = (leftLoop.lines, none) := rfl
  have hliteral : leftLoop.lines.all (fun line => Word.isLiteral line.text) = true := rfl
  have hkeeps : ∀ line ∈ leftLoop.lines,
      KeepsKeyword Sandbox Device.Recorder ({} : Settings).shell line :=
    fun line hline => keepsKeyword_of_isLiteral (List.all_eq_true.mp hliteral line hline)
  have hiff := fun (s : Session Sandbox Device.Recorder) r =>
    (interpret_iff_run {} leftLoop leftLoopSource hlines hkeeps "left" s r).1
  have hrun : (leftLoop.outcome? {} 2 "left" idle).map (fun r => (r.1, r.2.output)) =
      some (.success, "kept\nafter\n") := by
    decide +kernel
  obtain ⟨⟨outcome, s'⟩, houtcome, hshown⟩ := Option.map_eq_some_iff.mp hrun
  obtain ⟨rfl, houtput⟩ := Prod.mk.inj hshown
  exact ⟨hlines, hkeeps, hiff, s', houtcome, houtput, (hiff idle _).mp ⟨2, houtcome⟩⟩

end InputScript.Machine
