import InputScript.Proofs.Program
import InputScript.Proofs.Run
import InputScript.Proofs.Stack

/-!
# What a line can do

One inversion for each thing that a script does with its next line.  `Performed` lists what a
command can make of its script, `Omitted` what a skipped line can, `Iterated` what the end of a loop
body can, and `Advanced` puts them together: whoever studies the runs of scripts takes a move of
`advance` apart by `advanced_of_ok` and never unfolds it.

Each case holds all that was checked on the way and how the session came about.

As a first use, a script keeps its name, its lines and the line that called it (`Move.keeps`), and a
property of single scripts that every move keeps holds in whole runs (`all_of_leads`).
-/

namespace InputScript.Machine

open Device (Sink)
open Script (Line RawLine)

variable {σ ω : Type} [Host σ] {inherited : Option Countdown} {m : Move} {s s' : Session σ ω}

/-! ## Invocations -/

/-- The verb of a command is the one that its first word names. -/
theorem verb_of_bind {name : String} {args : List String} {line : Option Nat} {inv : Invocation}
    (h : Invocation.bind (name :: args) line = .ok inv) :
    Verb.ofName? name = some inv.verb ∧ inv.line = line := by
  simp only [Invocation.bind] at h
  split at h
  · cases h
  · next verb hverb =>
      split at h
      · cases h
      · split at h
        · cases h
        · cases h
          exact ⟨hverb, rfl⟩

/-- A verb without options takes all the words after it. -/
theorem words_of_bind {words : List String} {line : Option Nat} {inv : Invocation}
    (h : Invocation.bind words line = .ok inv) (hoptions : inv.verb.acceptsOptions = false) :
    words = inv.verb.name :: inv.args := by
  cases words with
  | nil => cases h
  | cons name args =>
      have hverb := (verb_of_bind h).1
      simp only [Invocation.bind, hverb, Invocation.takeArguments, hoptions, Bool.false_eq_true,
        if_false] at h
      split at h
      · cases h
      · have hargs : args = inv.args := congrArg Invocation.args (Except.ok.inj h)
        rw [Verb.name_of_ofName? hverb, hargs]

theorem line_of_bind {words : List String} {line : Option Nat} {inv : Invocation}
    (h : Invocation.bind words line = .ok inv) : inv.line = line := by
  cases words with
  | nil => cases h
  | cons name args => exact (verb_of_bind h).2

/-! ## Loops -/

variable {lines : List Line}

section Session

omit [Host σ]

theorem loopTime_preserves {γ : Type} (view : Session σ ω → γ) (inv : Invocation) :
    Act.Preserves view (loopTime inv : Act σ ω _) := by
  unfold loopTime
  split
  · exact .fail _
  · exact .pure _
  · exact .pure _

theorem loopLimits_preserves {γ : Type} (view : Session σ ω → γ) (inv : Invocation) :
    Act.Preserves view (loopLimits inv : Act σ ω _) := by
  unfold loopLimits
  refine .bind (.ofExcept _ _) fun count => .bind (loopTime_preserves view inv) fun text => ?_
  refine .bind (.lift _ _) fun time => ?_
  split
  · exact .fail _
  · exact .pure _

theorem breakLevels_preserves {γ : Type} (view : Session σ ω → γ) (inv : Invocation) :
    Act.Preserves view (breakLevels inv : Act σ ω _) := by
  unfold breakLevels
  split
  · exact .pure _
  · exact .ofExcept _ _

theorem positive_pos {text what : String} {verb : Option String} {n : Nat}
    (h : Argument.positive text verb what = .ok n) : 0 < n := by
  unfold Argument.positive at h
  cases hint : Argument.integer text verb with
  | error e =>
      rw [hint] at h
      cases h
  | ok m =>
      rw [hint] at h
      simp only [bind, Except.bind] at h
      split at h
      · cases h
      · cases h
        omega

/-- A `break` leaves at least one loop. -/
theorem breakLevels_pos {inv : Invocation} {levels : Nat}
    (h : (breakLevels inv).exec s = (.ok levels, s')) : 0 < levels := by
  unfold breakLevels at h
  split at h
  · cases h
    exact Nat.one_pos
  · next arg _ _ =>
      cases hpositive : Argument.positive arg (some inv.name) "loop depth" with
      | error e =>
          rw [hpositive] at h
          cases h
      | ok n =>
          rw [hpositive] at h
          cases h
          exact positive_pos hpositive

theorem checkDepth_ok {settings : Settings} {depth : Nat} {verb : String}
    (h : (checkDepth settings depth verb).exec s = (.ok (), s')) :
    depth < settings.maxControlDepth ∧ s' = s := by
  unfold checkDepth at h
  split at h
  · cases h
  · cases h
    exact ⟨by omega, rfl⟩

/-- A body and what follows it are the lines that it was taken from. -/
theorem takeBody_eq {n : Nat} {body : Body} (h : takeBody n lines = .ok body) :
    lines = body.lines ++ body.closer :: body.rest := by
  induction lines generalizing n body with
  | nil => cases h
  | cons line rest ih => 
      rw [takeBody] at h
      split at h
      · cases h
      · dsimp only at h
        split at h
        · cases h
          rfl
        all_goals
          split at h
          · cases h
          · next inner hinner =>
              cases h
              rw [ih hinner]
              rfl

/-- The line that stops a collection is among those that were to be collected, and does so by its
first word. -/
theorem of_takeBody_obscure {n : Nat} {line : Line} {trouble : Trouble Word.WordFault}
    (h : takeBody n lines = .error (.obscure line trouble)) :
    line ∈ lines ∧ Word.firstWord line.text = .error trouble := by
  induction lines generalizing n with
  | nil => cases h
  | cons first rest ih =>
      rw [takeBody] at h
      split at h
      · next hword =>
          cases h
          exact ⟨List.mem_cons_self, hword⟩
      · dsimp only at h
        split at h
        · cases h
        all_goals
          split at h
          · next hinner =>
              cases h
              exact (ih hinner).imp_left (List.mem_cons_of_mem first)
          · cases h

/-- A body was collected; with it go the activation that has read it and the standard input left. -/
structure Collected (a : Activation) (input : List RawLine) (body : Body) (a' : Activation)
    (input' : List RawLine) : Prop where
  taken : takeBody 0 (a.upcoming input).1 = .ok body
  skipped : a.skipPast input body.closer body.rest = (a', input')

theorem collected_of_ok {a a' : Activation} (h : (collect a).exec s = (.ok (lines, a'), s')) :
    ∃ body input, Collected a s.input body a' input ∧ lines = body.lines ∧
      s' = { s with input } := by
  unfold collect at h
  rw [Act.exec_bind_of_ok (Act.exec_get s)] at h
  dsimp only at h
  split at h
  · next body hbody =>
      rw [Act.exec_bind_of_ok (Act.exec_set _ _), Act.exec_pure] at h
      cases h
      exact ⟨body, _, ⟨hbody, rfl⟩, rfl, rfl⟩
  · next line trouble _ =>
      obtain ⟨_, _, _, hfail⟩ := Act.exec_bind_eq_ok.mp h
      rw [exec_located_eq_ok] at hfail
      rcases trouble with f | c <;> cases hfail
  · split at h
    · obtain ⟨_, _, _, hfail⟩ := Act.exec_bind_eq_ok.mp h
      cases hfail
    · obtain ⟨_, _, _, hfail⟩ := Act.exec_bind_eq_ok.mp h
      cases hfail

end Session

/-- The lines of an opened script are those of the file with its name; a dash is the standard
input. -/
theorem openFeed_ok {path : String} {feed : Feed} (h : (openFeed path).exec s = (.ok feed, s')) :
    (path = "-" ∧ feed = { pending := none }) ∨
      ∃ bytes, Host.readFile path s.host = .ok bytes ∧
        feed = { pending := some (RawLine.ofBytes bytes) } := by
  unfold openFeed at h
  split at h
  · next hdash =>
      cases h
      exact .inl ⟨beq_iff_eq.mp hdash, rfl⟩
  · split at h
    · cases h
    · rw [Act.exec_bind_of_ok (Act.exec_get s)] at h
      split at h
      · cases h
      · next bytes hread =>
          cases h
          exact .inr ⟨bytes, hread, rfl⟩

/-- Opening a script leaves the session as it is. -/
theorem exec_openFeed (path : String) (s : Session σ ω) :
    (∃ feed, (openFeed path).exec s = (.ok feed, s)) ∨
      (∃ f, (openFeed path).exec s = (.error (.fault f), s)) ∨
      hasNul path = true ∧ (openFeed path).exec s = (.error (.crash .embeddedNul), s) := by
  unfold openFeed
  split
  · exact .inl ⟨_, rfl⟩
  · split
    · next hnul => exact .inr (.inr ⟨hnul, rfl⟩)
    · rw [Act.exec_bind_of_ok (Act.exec_get s)]
      split
      · exact .inr (.inl ⟨_, rfl⟩)
      · exact .inl ⟨_, rfl⟩

/-- A script that is called starts at its first line, outside of any block. -/
theorem callScript_ok {settings : Settings} {depth : Nat} {inv : Invocation} {path : String}
    {callee : Activation} (h : (callScript settings depth inv path).exec s = (.ok callee, s')) :
    ∃ feed s₁, (openFeed path).exec s = (.ok feed, s₁) ∧ callee =
      { role := .script, source := path, depth := depth + 1, feed, calledFrom := inv.line } := by
  unfold callScript at h
  split at h
  · cases h
  · obtain ⟨feed, s₁, hopen, h₁⟩ := Act.exec_bind_eq_ok.mp h
    cases h₁
    exact ⟨feed, s₁, hopen, rfl⟩

/-- The activation in the first iteration of the loop on top of its stack. -/
def Activation.replaying (a : Activation) (frame : LoopFrame) (lines : List Line) : Activation :=
  let a := a.setLoopAt a.height { frame with body := { lines } }
  { a with replays := { base := a.height } :: a.replays }

/-! ## Commands -/

section Performed

variable [Sink ω]

/-- What a command can make of its script. -/
inductive Performed (settings : Settings) (inherited : Option Countdown) (a : Activation)
    (inv : Invocation) (s : Session σ ω) : Move → Session σ ω → Prop
  | simple {s' : Session σ ω} (hverb : inv.verb.isControl = false)
      (hdone : (simple settings inv).exec s = (.ok (), s')) :
      Performed settings inherited a inv s (.next a) s'
  | call {path : String} {args : List String} {callee : Activation} {s' : Session σ ω}
      (hverb : inv.verb = .script) (hargs : inv.args = path :: args)
      (hcall : (callScript settings a.depth inv path).exec s = (.ok callee, s')) :
      Performed settings inherited a inv s (.call callee a) s'
  | loop {count : Option Nat} {time : Option Binary64} {frame : LoopFrame} {body : Body}
      {a₁ : Activation} {input : List RawLine} {s' : Session σ ω}
      (hverb : inv.verb = .loop)
      (hlimits : (loopLimits inv).exec s = (.ok (count, time), s))
      (hframe : frame =
        { remaining := count, deadline := time.map ((Clock.read s.host).1 + ·), line := inv.line })
      (hdepth : a.height < settings.maxControlDepth)
      (hbody : Collected (a.push (.loop frame)) s.input body a₁ input)
      (hpublish : (publish ((a₁.replaying frame body.lines).countdown? inherited)).exec
        { s with
          host := (Clock.read s.host).2
          input
          journal := .loopStarted count time body.lines.length inv.line :: s.journal } =
        (.ok (), s')) :
      Performed settings inherited a inv s (.next (a₁.replaying frame body.lines)) s'
  | leave {levels left : Nat} {a' : Activation} {s' : Session σ ω} (hverb : inv.verb = .leave)
      (hlevels : (breakLevels inv).exec s = (.ok levels, s))
      (havailable : levels ≤ a.loops.length)
      (hleave : (leaveLoops inherited a levels a.replays).exec
        { s with journal := .loopBreak levels :: s.journal } = (.ok (left, a'), s')) :
      Performed settings inherited a inv s (if left = 0 then .next a' else .unwind left) s'
  | cond {truth : Bool} {s' : Session σ ω} (hverb : inv.verb = .cond)
      (hjudge : (judge settings inv).exec s = (.ok truth, s'))
      (hdepth : a.height < settings.maxControlDepth) :
      Performed settings inherited a inv s
        (.next (if truth then a.push (.cond { line := inv.line })
          else (a.push (.cond { line := inv.line })).startOmission false)) s'
  | otherwise {c : CondFrame} {frames : List Frame} (hverb : inv.verb = .otherwise)
      (hframes : a.frames = .cond c :: frames) (hseen : c.elseSeen = false) :
      Performed settings inherited a inv s (.next (a.markElse.startOmission true)) s
  | close {c : CondFrame} {frames : List Frame} (hverb : inv.verb = .close)
      (hframes : a.frames = .cond c :: frames) :
      Performed settings inherited a inv s (.next a.pop) s
  | exit {s' : Session σ ω} (hverb : inv.verb = .exit)
      (hexit : (exitScript inherited a).exec s = (.ok .leave, s')) :
      Performed settings inherited a inv s .leave s'

variable {settings : Settings} {a : Activation} {inv : Invocation}

theorem perform_plain (hverb : inv.verb.isControl = false) (a : Activation)
    (inherited : Option Countdown) :
    (perform settings inherited a inv : Act σ ω Move) =
      (executePlain settings a.depth inv >>= fun callee => pure (plainMove a callee)) := by
  unfold perform
  cases hcase : inv.verb <;> first | rfl | (rw [hcase] at hverb; cases hverb)

theorem performed_of_startLoop (hverb : inv.verb = .loop)
    (h : (startLoop settings inherited a inv).exec s = (.ok m, s')) :
    Performed settings inherited a inv s m s' := by
  unfold startLoop at h
  obtain ⟨⟨count, time⟩, s₁, hlimits, h₁⟩ := Act.exec_bind_eq_ok.mp h
  obtain rfl : s = s₁ := ((loopLimits_preserves id inv).of_eq hlimits).symm
  obtain ⟨now, s₂, hclock, h₂⟩ := Act.exec_bind_eq_ok.mp h₁
  cases (exec_readClock s).symm.trans hclock
  obtain ⟨⟨⟩, s₃, hdepth, h₃⟩ := Act.exec_bind_eq_ok.mp h₂
  obtain ⟨hheight, rfl⟩ := checkDepth_ok hdepth
  obtain ⟨⟨lines, a₁⟩, s₄, hcollect, h₄⟩ := Act.exec_bind_eq_ok.mp h₃
  obtain ⟨body, input, hbody, rfl, rfl⟩ := collected_of_ok hcollect
  obtain ⟨⟨⟩, s₅, hnote, h₅⟩ := Act.exec_bind_eq_ok.mp h₄
  cases hnote
  obtain ⟨⟨⟩, s₆, hpublish, h₆⟩ := Act.exec_bind_eq_ok.mp h₅
  cases h₆
  exact .loop hverb hlimits rfl hheight hbody hpublish

theorem performed_of_startBreak (hverb : inv.verb = .leave)
    (h : (startBreak inherited a inv).exec s = (.ok m, s')) :
    Performed settings inherited a inv s m s' := by
  unfold startBreak at h
  obtain ⟨levels, s₁, hlevels, h₁⟩ := Act.exec_bind_eq_ok.mp h
  obtain rfl : s = s₁ := ((breakLevels_preserves id inv).of_eq hlevels).symm
  dsimp only at h₁
  split at h₁
  · cases h₁
  · next havailable =>
      obtain ⟨⟨⟩, s₂, hnote, h₂⟩ := Act.exec_bind_eq_ok.mp h₁
      cases hnote
      obtain ⟨⟨left, a'⟩, s₃, hleave, h₃⟩ := Act.exec_bind_eq_ok.mp h₂
      cases h₃
      exact .leave hverb hlevels (Nat.not_lt.mp havailable) hleave

theorem performed_of_startCond (hverb : inv.verb = .cond)
    (h : (startCond settings a inv).exec s = (.ok m, s')) :
    Performed settings inherited a inv s m s' := by
  unfold startCond at h
  obtain ⟨truth, s₁, hjudge, h₁⟩ := Act.exec_bind_eq_ok.mp h
  obtain ⟨⟨⟩, s₂, hdepth, h₂⟩ := Act.exec_bind_eq_ok.mp h₁
  obtain ⟨hheight, rfl⟩ := checkDepth_ok hdepth
  cases h₂
  exact .cond hverb hjudge hheight

theorem performed_of_startElse (hverb : inv.verb = .otherwise)
    (h : (startElse a inv : Act σ ω Move).exec s = (.ok m, s')) :
    Performed settings inherited a inv s m s' := by
  unfold startElse at h
  split at h
  · next line frames hframes =>
      cases h
      exact .otherwise hverb hframes rfl
  · cases h

theorem performed_of_endCond (hverb : inv.verb = .close)
    (h : (endCond a inv : Act σ ω Move).exec s = (.ok m, s')) :
    Performed settings inherited a inv s m s' := by
  unfold endCond at h
  split at h
  · next c frames hframes =>
      cases h
      exact .close hverb hframes
  · cases h

omit [Host σ] [Sink ω] in
theorem finish_ok (h : (finish a : Act σ ω Move).exec s = (.ok m, s')) :
    m = .leave ∧ a.frames = [] := by
  unfold finish at h
  split at h
  · cases h
  · next hframes =>
      split at h <;> cases h <;> exact ⟨rfl, hframes⟩

omit [Host σ] [Sink ω] in
theorem finish_preserves {γ : Type} {view : Session σ ω → γ}
    (hnote : ∀ note, (Act.note note : Act σ ω Unit).Preserves view) (a : Activation) :
    (finish a : Act σ ω Move).Preserves view := by
  unfold finish
  split
  · exact .throw _
  · split
    · exact (hnote _).bind fun _ => .pure _
    · exact .pure _

omit [Host σ] [Sink ω] in
theorem exec_finish (hframes : a.frames = []) (s : Session σ ω) :
    ∃ s', (finish a : Act σ ω Move).exec s = (.ok .leave, s') := by
  unfold finish
  rw [hframes]
  cases a.role <;> exact ⟨_, rfl⟩

omit [Sink ω] in
/-- Leaving a script always succeeds. -/
theorem exec_exitScript (inherited : Option Countdown) (a : Activation) (s : Session σ ω) :
    ∃ s', (exitScript inherited a : Act σ ω Move).exec s = (.ok .leave, s') := by
  rw [exitScript, Act.exec_bind_of_ok (Act.exec_noteAll _ _),
    Act.exec_bind_of_ok (exec_publish _ _)]
  exact exec_finish rfl _

omit [Sink ω] in
theorem exitScript_ok (h : (exitScript inherited a : Act σ ω Move).exec s = (.ok m, s')) :
    m = .leave := by
  obtain ⟨s₁, hexit⟩ := exec_exitScript inherited a s
  rw [hexit] at h
  cases h
  rfl

theorem performed_of_ok (h : (perform settings inherited a inv).exec s = (.ok m, s')) :
    Performed settings inherited a inv s m s' := by
  unfold perform at h
  split at h
  · next hverb => exact performed_of_startLoop hverb h
  · next hverb => exact performed_of_startBreak hverb h
  · next hverb => exact performed_of_startCond hverb h
  · next hverb => exact performed_of_startElse hverb h
  · next hverb => exact performed_of_endCond hverb h
  · next hverb =>
      obtain rfl := exitScript_ok h
      exact .exit hverb h
  · next hloop hleave hcond helse hclose hexit =>
      have hcontrol : inv.verb.isControl = false := by
        cases hverb : inv.verb <;> first | rfl | skip
        · exact (hloop hverb).elim
        · exact (hcond hverb).elim
        · exact (helse hverb).elim
        · exact (hleave hverb).elim
        · exact (hclose hverb).elim
        · exact (hexit hverb).elim
      obtain ⟨callee, s₁, hplain, h₁⟩ := Act.exec_bind_eq_ok.mp h
      cases h₁
      unfold executePlain at hplain
      split at hplain
      · next path args hverb hargs =>
          obtain ⟨callee, s₂, hcall, h₂⟩ := Act.exec_bind_eq_ok.mp hplain
          cases h₂
          exact .call hverb hargs hcall
      · obtain ⟨⟨⟩, s₂, hdone, h₂⟩ := Act.exec_bind_eq_ok.mp hplain
        cases h₂
        exact .simple hcontrol hdone

/-- A `loop` that is performed has collected its body. -/
theorem Performed.entered (h : Performed settings inherited a inv s m s') (hverb : inv.verb = .loop) :
    ∃ count time frame body a₁ input, (loopLimits inv).exec s = (.ok (count, time), s) ∧
      frame =
        { remaining := count, deadline := time.map ((Clock.read s.host).1 + ·), line := inv.line } ∧
      Collected (a.push (.loop frame)) s.input body a₁ input ∧
      m = .next (a₁.replaying frame body.lines) := by
  cases h with
  | loop _ hlimits hframe _ hbody _ => exact ⟨_, _, _, _, _, _, hlimits, hframe, hbody, rfl⟩
  | simple hplain _ =>
      rw [hverb] at hplain
      cases hplain
  | call hother _ _ | leave hother _ _ _ | cond hother _ _ | otherwise hother _ _ | close hother _
  | exit hother _ =>
      rw [hverb] at hother
      cases hother

end Performed

/-! ## Skipped lines -/

section Omitted

omit [Host σ]

/-- What a skipped line can make of its script. -/
inductive Omitted (a : Activation) (o : Omission) (line : Line) (s : Session σ ω) :
    Move → Session σ ω → Prop
  | opener {word : Option String} (hword : Word.firstWord line.text = .ok word)
      (hmark : Mark.ofWord word = .opener) :
      Omitted a o line s
        (.next { a with omission := some { o with nesting := o.nesting + 1 } }) s
  | inner {word : Option String} {n : Nat} (hword : Word.firstWord line.text = .ok word)
      (hmark : Mark.ofWord word = .closer) (hnesting : o.nesting = n + 1) :
      Omitted a o line s (.next { a with omission := some { o with nesting := n } }) s
  | close {word : Option String} (hword : Word.firstWord line.text = .ok word)
      (hmark : Mark.ofWord word = .closer) (hnesting : o.nesting = 0) :
      Omitted a o line s (.next { a.pop with omission := none })
        { s with journal := .omitFinished line.number Verb.close.name :: s.journal }
  | otherwise (hword : Word.firstWord line.text = .ok (some Verb.otherwise.name))
      (hnesting : o.nesting = 0) (hseen : o.elseSeen = false) :
      Omitted a o line s
        (.next { (if a.height = o.height then a.markElse else a) with omission := none })
        { s with journal := .omitFinished line.number Verb.otherwise.name :: s.journal }
  | neutral {word : Option String} (hword : Word.firstWord line.text = .ok word)
      (hmark : Mark.ofWord word = .neutral) :
      Omitted a o line s (.next a) s

variable {a : Activation} {o : Omission} {line : Line}

theorem omitted_of_ok (h : (omitLine a o line).exec s = (.ok m, s')) :
    Omitted a o line s m s' := by
  unfold omitLine at h
  cases hword : Word.firstWord line.text with
  | error trouble =>
      rw [hword] at h
      rcases trouble with f | c <;> cases h
  | ok word =>
      rw [hword, Act.exec_bind_of_ok (Act.exec_lift_ok _ _ _)] at h
      split at h
      · next hmark =>
          cases h
          exact .opener hword hmark
      · next n hmark hnesting =>
          cases h
          exact .inner hword hmark hnesting
      · next hmark hnesting =>
          cases h
          exact .close hword hmark hnesting
      · next hmark hnesting =>
          split at h
          · next helse =>
              obtain rfl : word = some Verb.otherwise.name := eq_of_beq helse
              split at h
              · cases h
              · next hseen =>
                  cases h
                  exact .otherwise hword hnesting (Bool.not_eq_true _ ▸ hseen)
          · cases h
            exact .neutral hword hmark
      · next hmark _ =>
          cases h
          exact .neutral hword hmark

end Omitted

/-! ## Ends of iterations -/

/-- What the end of a loop body can make of its script. -/
inductive Iterated (inherited : Option Countdown) (a : Activation) (replay : Replay)
    (outer : List Replay) (s : Session σ ω) : Move → Session σ ω → Prop
  | gone (hframe : a.loopAt? replay.base = none) :
      Iterated inherited a replay outer s (.next { a with replays := outer }) s
  | finished {frame : LoopFrame} {timeDone : Bool} {a' : Activation} {s₁ s₂ : Session σ ω}
      (hframe : a.loopAt? replay.base = some frame)
      (htime : (timeIsUp frame.deadline).exec s = (.ok timeDone, s₁))
      (hlast : frame.remaining.map (· - 1) = some 0 ∨ timeDone = true)
      (ha' : a' =
        { (a.setLoopAt replay.base
            { frame with
              remaining := frame.remaining.map (· - 1)
              body := frame.body.truncate }).pop with replays := outer })
      (hpublish : (publish (a'.countdown? inherited)).exec s₁ = (.ok (), s₂)) :
      Iterated inherited a replay outer s (.next a')
        { s₂ with journal := .loopFinished (replay.iterations + 1) frame.line :: s₂.journal }
  | continued {frame : LoopFrame} {a' : Activation} {s₁ s₂ : Session σ ω}
      (hframe : a.loopAt? replay.base = some frame)
      (htime : (timeIsUp frame.deadline).exec s = (.ok false, s₁))
      (hmore : frame.remaining.map (· - 1) ≠ some 0)
      (ha' : a' =
        { a.setLoopAt replay.base
            { frame with
              remaining := frame.remaining.map (· - 1)
              body := frame.body.rewind } with
          replays := { replay with iterations := replay.iterations + 1 } :: outer })
      (hpublish : (publish (a'.countdown? inherited)).exec
        { s₁ with
          journal := .loopContinued (frame.remaining.map (· - 1)) (replay.iterations + 1) ::
            s₁.journal } = (.ok (), s₂)) :
      Iterated inherited a replay outer s (.next a') s₂

theorem iterated_of_ok {a : Activation} {replay : Replay} {outer : List Replay}
    (h : (endIteration inherited a replay outer).exec s = (.ok m, s')) :
    Iterated inherited a replay outer s m s' := by
  unfold endIteration at h
  cases hframe : a.loopAt? replay.base with
  | none =>
      rw [hframe] at h
      cases h
      exact .gone hframe
  | some frame =>
      rw [hframe] at h
      obtain ⟨timeDone, s₁, htime, h₁⟩ := Act.exec_bind_eq_ok.mp h
      split at h₁
      · next hlast =>
          obtain ⟨⟨⟩, s₂, hpublish, h₂⟩ := Act.exec_bind_eq_ok.mp h₁
          cases h₂
          have hdone := Iterated.finished hframe htime hlast rfl hpublish
          exact hdone
      · next hmore =>
          obtain ⟨hcount, htimeDone⟩ := not_or.mp hmore
          rw [Bool.not_eq_true] at htimeDone
          subst htimeDone
          obtain ⟨⟨⟩, s₂, hnote, h₂⟩ := Act.exec_bind_eq_ok.mp h₁
          cases hnote
          obtain ⟨⟨⟩, s₃, hpublish, h₃⟩ := Act.exec_bind_eq_ok.mp h₂
          cases h₃
          exact .continued hframe htime hcount rfl hpublish

/-! ## Lines -/

section Advanced

variable [Sink ω]

/-- What a script can do with its next line, or at the end of its lines. -/
inductive Advanced (settings : Settings) (inherited : Option Countdown) (a : Activation)
    (s : Session σ ω) : Move → Session σ ω → Prop
  | omitted {line : Line} {a₁ : Activation} {input : List RawLine} {o : Omission} {m : Move}
      {s' : Session σ ω} (hfetch : a.fetch s.input = (.line line, a₁, input))
      (homit : a₁.omission = some o) (hline : Omitted a₁ o line { s with input } m s') :
      Advanced settings inherited a s m s'
  | blank {line : Line} {a₁ : Activation} {input : List RawLine} {s' : Session σ ω}
      (hfetch : a.fetch s.input = (.line line, a₁, input)) (homit : a₁.omission = none)
      (hsplit : (Expansion.split settings.shell line.text (some line.number)).exec
        { s with input } = (.ok [], s')) :
      Advanced settings inherited a s (.next a₁) s'
  | performed {line : Line} {a₁ : Activation} {input : List RawLine} {words : List String}
      {inv : Invocation} {m : Move} {s₁ s' : Session σ ω}
      (hfetch : a.fetch s.input = (.line line, a₁, input)) (homit : a₁.omission = none)
      (hsplit : (Expansion.split settings.shell line.text (some line.number)).exec
        { s with input } = (.ok words, s₁))
      (hbind : Invocation.bind words (some line.number) = .ok inv)
      (hline : Performed settings inherited a₁ inv
        { s₁ with journal := .commandDispatched inv :: s₁.journal } m s') :
      Advanced settings inherited a s m s'
  | iterated {a₁ : Activation} {input : List RawLine} {replay : Replay} {outer : List Replay}
      {m : Move} {s' : Session σ ω} (hfetch : a.fetch s.input = (.finished, a₁, input))
      (hreplays : a₁.replays = replay :: outer)
      (hend : Iterated inherited a₁ replay outer { s with input } m s') :
      Advanced settings inherited a s m s'
  | finished {a₁ : Activation} {input : List RawLine} {s' : Session σ ω}
      (hfetch : a.fetch s.input = (.finished, a₁, input)) (hreplays : a₁.replays = [])
      (hframes : a₁.frames = [])
      (hfinish : (finish a₁).exec { s with input } = (.ok .leave, s')) :
      Advanced settings inherited a s .leave s'

/-- The next line of a script is executed, and its words are those of a command. -/
inductive NextCommand (settings : Settings) (a : Activation) (s : Session σ ω) :
    Activation → Invocation → Session σ ω → Prop
  | intro {line : Line} {a₁ : Activation} {input : List RawLine} {words : List String}
      {inv : Invocation} {s₁ : Session σ ω}
      (hfetch : a.fetch s.input = (.line line, a₁, input)) (homit : a₁.omission = none)
      (hsplit : (Expansion.split settings.shell line.text (some line.number)).exec
        { s with input } = (.ok words, s₁))
      (hbind : Invocation.bind words (some line.number) = .ok inv) :
      NextCommand settings a s a₁ inv s₁

variable {settings : Settings} {a : Activation} {words : List String} {inv : Invocation}
  {line : Option Nat}

omit [Host σ] [Sink ω] in
theorem ne_nil_of_bind (h : Invocation.bind words line = .ok inv) : words ≠ [] := by
  rintro rfl
  cases h

omit [Host σ] [Sink ω] in
theorem commandOf_ok (h : (commandOf words line).exec s = (.ok inv, s')) :
    Invocation.bind words line = .ok inv ∧
      s' = { s with journal := .commandDispatched inv :: s.journal } := by
  unfold commandOf at h
  rcases hbind : Invocation.bind words line with (f | c) | inv'
  · rw [hbind] at h
    cases h
  · rw [hbind] at h
    cases h
  · rw [hbind, Act.exec_bind_of_ok (Act.exec_lift_ok _ _ _)] at h
    cases h
    exact ⟨rfl, rfl⟩

omit [Host σ] [Sink ω] in
theorem commandOf_error {e : Trouble Failure}
    (h : (commandOf words line : Act σ ω Invocation).exec s = (.error e, s')) :
    (∃ cause, Invocation.bind words line = .error cause) ∧ s' = s := by
  unfold commandOf at h
  rcases hbind : Invocation.bind words line with (f | c) | inv
  · rw [hbind] at h
    cases h
    exact ⟨⟨_, rfl⟩, rfl⟩
  · rw [hbind] at h
    cases h
    exact ⟨⟨_, rfl⟩, rfl⟩
  · rw [hbind, Act.exec_bind_of_ok (Act.exec_lift_ok _ _ _)] at h
    cases h

omit [Host σ] [Sink ω] in
theorem exec_commandOf (h : Invocation.bind words line = .ok inv) (s : Session σ ω) :
    (commandOf words line).exec s =
      (.ok inv, { s with journal := .commandDispatched inv :: s.journal }) := by
  rw [commandOf, h]
  rfl

/-- A line whose words ask for a command is executed as this command. -/
theorem exec_advance_of_command (inherited : Option Countdown) {line : Line} {a₁ : Activation}
    {input : List RawLine} {s₁ s₂ : Session σ ω}
    (hfetch : a.fetch s.input = (.line line, a₁, input)) (homit : a₁.omission = none)
    (hsplit : (Expansion.split settings.shell line.text (some line.number)).exec { s with input } =
      (.ok words, s₁)) (hcommand : (commandOf words (some line.number)).exec s₁ = (.ok inv, s₂)) :
    (advance settings inherited a).exec s =
      (located a₁.source (some line.number) (perform settings inherited a₁ inv)).exec s₂ := by
  have hwords : ¬ words.isEmpty = true := by
    intro hempty
    rw [List.isEmpty_iff.mp hempty] at hcommand
    cases hcommand
  rw [advance, Act.exec_bind_of_ok (Act.exec_get s)]
  simp only [hfetch, homit]
  rw [Act.exec_bind_of_ok (Act.exec_set _ _), exec_located, exec_located, executeLine,
    Act.exec_bind_of_ok hsplit, if_neg hwords, dispatch, Act.exec_bind_of_ok hcommand]

theorem advanced_of_ok (h : (advance settings inherited a).exec s = (.ok m, s')) :
    Advanced settings inherited a s m s' := by
  unfold advance at h
  rcases hfetch : a.fetch s.input with ⟨next, a₁, input⟩
  simp only [Act.exec_bind_of_ok (Act.exec_get s), hfetch,
    Act.exec_bind_of_ok (Act.exec_set _ _)] at h
  cases next with
  | line line =>
      rw [exec_located_eq_ok] at h
      cases homit : a₁.omission with
      | some o =>
          rw [homit] at h
          exact .omitted hfetch homit (omitted_of_ok h)
      | none =>
          rw [homit] at h
          unfold executeLine at h
          obtain ⟨words, s₁, hsplit, h₁⟩ := Act.exec_bind_eq_ok.mp h
          split at h₁
          · next hempty =>
              obtain rfl := List.isEmpty_iff.mp hempty
              cases h₁
              exact .blank hfetch homit hsplit
          · unfold dispatch at h₁
            obtain ⟨inv, s₂, hcommand, h₂⟩ := Act.exec_bind_eq_ok.mp h₁
            obtain ⟨hbind, rfl⟩ := commandOf_ok hcommand
            exact .performed hfetch homit hsplit hbind (performed_of_ok h₂)
  | fault fault => cases h
  | finished =>
      cases hreplays : a₁.replays with
      | cons replay outer =>
          rw [hreplays] at h
          exact .iterated hfetch hreplays (iterated_of_ok h)
      | nil =>
          rw [hreplays] at h
          obtain ⟨rfl, hframes⟩ := finish_ok h
          exact .finished hfetch hreplays hframes h

theorem Performed.callee {callee b : Activation} (h : Performed settings inherited a inv s m s')
    (hm : m = .call callee b) :
    ∃ s₁ path, (callScript settings b.depth inv path).exec s₁ = (.ok callee, s') := by
  cases h with
  | call _ _ hcall =>
      cases hm
      exact ⟨_, _, hcall⟩
  | leave _ _ _ _ => split at hm <;> cases hm
  | simple _ _ | loop _ _ _ _ _ _ | cond _ _ _ | otherwise _ _ _ | close _ _ | exit _ _ => cases hm

/-- A script that is called was opened by a command. -/
theorem Advanced.callee {callee b : Activation} (h : Advanced settings inherited a s m s')
    (hm : m = .call callee b) :
    ∃ inv s₁ path, (callScript settings b.depth inv path).exec s₁ = (.ok callee, s') := by
  cases h with
  | omitted _ _ hline => cases hline <;> cases hm
  | blank _ _ _ => cases hm
  | performed _ _ _ _ hline =>
      obtain ⟨s₁, path, hcall⟩ := hline.callee hm
      exact ⟨_, s₁, path, hcall⟩
  | iterated _ _ hend => cases hend <;> cases hm
  | finished _ _ _ _ => cases hm

/-- Loops of the caller are only left if there are any left to leave. -/
theorem Advanced.unwind_pos {levels : Nat} (h : Advanced settings inherited a s m s')
    (hm : m = .unwind levels) : levels ≠ 0 := by
  cases h with
  | omitted _ _ hline => cases hline <;> cases hm
  | blank _ _ _ => cases hm
  | performed _ _ _ _ hline =>
      cases hline with
      | leave _ _ _ _ =>
          split at hm
          · cases hm
          · next hleft =>
              cases hm
              exact hleft
      | simple _ _ | call _ _ _ | loop _ _ _ _ _ _ | cond _ _ _ | otherwise _ _ _ | close _ _
      | exit _ _ =>
          cases hm
  | iterated _ _ hend => cases hend <;> cases hm
  | finished _ _ _ _ => cases hm

end Advanced

/-! ## What a script keeps -/

/-- Who a script is: what it was called as, and from where. -/
def Activation.identity (a : Activation) : Role × String × Nat × Option Nat :=
  (a.role, a.source, a.depth, a.calledFrom)

/-- The physical lines that a feed had at first; none of its own if it is the standard input. -/
def Feed.origin (f : Feed) : Option (List RawLine) :=
  f.pending.map (f.past.reverse ++ ·)

theorem Feed.origin_take (f : Feed) (input : List RawLine) (count : Nat) :
    (f.take input count).1.origin = f.origin := by
  unfold take origin rest
  cases f.pending <;> simp

/-- What does not change while a script runs. -/
def Activation.birth (a : Activation) :
    (Role × String × Nat × Option Nat) × Option (List RawLine) :=
  (a.identity, a.feed.origin)

namespace Activation

@[simp] theorem birth_markElse (a : Activation) : a.markElse.birth = a.birth := by
  unfold markElse
  split <;> rfl

theorem feed_markElse (a : Activation) : a.markElse.feed = a.feed := by
  unfold markElse
  split <;> rfl

theorem replays_markElse (a : Activation) : a.markElse.replays = a.replays := by
  unfold markElse
  split <;> rfl

theorem birth_fetch {a a' : Activation} {input input' : List RawLine} {next : Script.Next}
    (h : a.fetch input = (next, a', input')) : a'.birth = a.birth := by
  unfold fetch at h
  split at h
  · split at h
    · cases h
      rfl
    · split at h <;> cases h <;> rfl
  · cases h
    exact congrArg (Prod.mk a.identity) (a.feed.origin_take input _)

theorem birth_skipPast {a a' : Activation} {input input' : List RawLine} {line : Line}
    {rest : List Line} (h : a.skipPast input line rest = (a', input')) :
    a'.birth = a.birth := by
  unfold skipPast at h
  split at h
  · split at h <;> cases h <;> rfl
  · cases h
    exact congrArg (Prod.mk a.identity) (a.feed.origin_take input _)

end Activation

section LeaveLoops

variable {a a' : Activation} {levels left : Nat} {replays : List Replay}

/-- What is kept where the innermost loop is left is kept where several are. -/
theorem leaveLoops_keeps {P : Activation → Prop}
    (hbreak : ∀ {b replay outer}, b.replays = replay :: outer → P b →
      P { (b.breakLoop replay.base).2 with replays := outer })
    (h : (leaveLoops inherited a levels replays).exec s = (.ok (left, a'), s'))
    (ha : P { a with replays }) : P a' := by
  induction replays generalizing a levels s with
  | nil => cases levels <;> cases h <;> exact ha
  | cons replay outer ih =>
      cases levels with
      | zero =>
          cases h
          exact ha
      | succ levels =>
          obtain ⟨_, _, _, h₁⟩ := Act.exec_bind_eq_ok.mp h
          obtain ⟨_, _, _, h₂⟩ := Act.exec_bind_eq_ok.mp h₁
          have hbroken := hbreak (b := { a with replays := replay :: outer }) rfl ha
          exact ih h₂ hbroken

/-- What publishing and notes leave alone is left alone where loops are left. -/
theorem leaveLoops_preserves {γ : Type} {view : Session σ ω → γ}
    (hpublish : ∀ c, (publish c : Act σ ω Unit).Preserves view)
    (hnote : ∀ note, (Act.note note : Act σ ω Unit).Preserves view) (inherited : Option Countdown)
    (a : Activation) (levels : Nat) (replays : List Replay) :
    (leaveLoops inherited a levels replays : Act σ ω _).Preserves view := by
  induction replays generalizing a levels with
  | nil => cases levels <;> exact .pure _
  | cons replay replays ih =>
      cases levels with
      | zero => exact .pure _
      | succ levels => exact (hpublish _).bind fun _ => (hnote _).bind fun _ => ih _ _

theorem birth_leaveLoops
    (h : (leaveLoops inherited a levels replays).exec s = (.ok (left, a'), s')) :
    a'.birth = a.birth :=
  leaveLoops_keeps (P := (·.birth = a.birth)) (fun _ hb => hb) h rfl

/-- Leaving loops takes frames and replays off their stacks, and ends an omission if any loop is left. -/
theorem leaveLoops_suffix
    (h : (leaveLoops inherited a levels replays).exec s = (.ok (left, a'), s')) :
    a'.frames <:+ a.frames ∧ a'.replays <:+ replays ∧
      (a'.omission = none ∨ a' = { a with replays }) := by
  refine leaveLoops_keeps
    (P := fun b => b.frames <:+ a.frames ∧ b.replays <:+ replays ∧
      (b.omission = none ∨ b = { a with replays }))
    (fun hr hb => ?_) h ⟨List.suffix_rfl, List.suffix_rfl, .inr rfl⟩
  obtain ⟨hframes, hreplays, -⟩ := hb
  rw [hr] at hreplays
  exact ⟨(List.drop_suffix _ _).trans hframes, (List.suffix_cons _ _).trans hreplays, .inl rfl⟩

end LeaveLoops

/-- A move leaves the script the same script. -/
def Move.keeps (a : Activation) : Move → Prop
  | .next b => b.birth = a.birth
  | .call _ b => b.birth = a.birth
  | .leave | .unwind _ => True

omit [Host σ] in
theorem Omitted.keeps {a : Activation} {o : Omission} {line : Line}
    (h : Omitted a o line s m s') : m.keeps a := by
  cases h with
  | otherwise _ _ _ =>
      by_cases hheight : a.height = o.height
      · rw [if_pos hheight]
        exact a.birth_markElse
      · rw [if_neg hheight]
        rfl
  | opener _ _ => rfl
  | inner _ _ _ => rfl
  | close _ _ _ => rfl
  | neutral _ _ => rfl

theorem Iterated.keeps {a : Activation} {replay : Replay} {outer : List Replay}
    (h : Iterated inherited a replay outer s m s') : m.keeps a := by
  cases h with
  | gone _ => rfl
  | finished _ _ _ ha' _ =>
      subst ha'
      rfl
  | continued _ _ _ ha' _ =>
      subst ha'
      rfl

variable {rest activations : List Activation}

section Keeps

variable [Sink ω] {settings : Settings} {a : Activation}

theorem Performed.keeps {inv : Invocation} (h : Performed settings inherited a inv s m s') :
    m.keeps a := by
  cases h with
  | simple _ _ => rfl
  | call _ _ _ => rfl
  | loop _ _ _ _ hbody _ =>
      have hsame := Activation.birth_skipPast hbody.skipped
      exact hsame
  | leave _ _ _ hleave =>
      split
      · exact birth_leaveLoops hleave
      · trivial
  | @cond truth _ _ _ _ => cases truth <;> rfl
  | otherwise _ _ _ => exact a.birth_markElse
  | close _ _ => rfl
  | exit _ _ => trivial

theorem Advanced.keeps (h : Advanced settings inherited a s m s') : m.keeps a := by
  have htrans : ∀ {a₁ : Activation}, a₁.birth = a.birth → m.keeps a₁ → m.keeps a := by
    intro a₁ hsame hkeeps
    cases m with
    | next b => exact hkeeps.trans hsame
    | call callee b => exact hkeeps.trans hsame
    | leave => trivial
    | unwind levels => trivial
  cases h with
  | omitted hfetch _ hline => exact htrans (Activation.birth_fetch hfetch) hline.keeps
  | blank hfetch _ _ => exact Activation.birth_fetch hfetch
  | performed hfetch _ _ _ hline => exact htrans (Activation.birth_fetch hfetch) hline.keeps
  | iterated hfetch _ hend => exact htrans (Activation.birth_fetch hfetch) hend.keeps
  | finished _ _ _ _ => trivial

theorem Activation.calledFrom_of_identity {b : Activation} (h : b.identity = a.identity) :
    b.calledFrom = a.calledFrom := by
  simp only [Activation.identity, Prod.mk.injEq] at h
  exact h.2.2.2

omit [Sink ω] in
theorem enteredFrom_unwind {levels : Nat} {b : Activation}
    (h : (unwind inherited levels activations : Act σ ω _).exec s = (.ok (0, b :: rest), s')) :
    enteredFrom (b :: rest) = enteredFrom activations := by
  induction activations generalizing levels s with
  | nil => cases h
  | cons a callers ih =>
      rw [unwind] at h
      obtain ⟨⟨left, a'⟩, s₁, hleave, h₁⟩ := Act.exec_bind_eq_ok.mp h
      cases left with
      | zero =>
          cases h₁
          have hidentity := congrArg Prod.fst (birth_leaveLoops hleave)
          exact enteredFrom_congr (Activation.calledFrom_of_identity hidentity) _
      | succ left =>
          have hrest := ih h₁
          cases callers with
          | nil => cases h₁
          | cons caller callers => exact hrest

/-- The line that called the outermost script stays the same while it runs. -/
theorem enteredFrom_turn {callers : List Activation} {b : Activation}
    (h : (turn settings inherited (a :: callers)).exec s = (.ok (0, b :: rest), s')) :
    enteredFrom (b :: rest) = enteredFrom (a :: callers) := by
  rw [turn] at h
  obtain ⟨m, s₁, hadvance, hfollow⟩ := Act.exec_bind_eq_ok.mp h
  have hkeeps := (advanced_of_ok hadvance).keeps
  cases m with
  | next a' =>
      cases hfollow
      exact enteredFrom_congr (Activation.calledFrom_of_identity (congrArg Prod.fst hkeeps)) _
  | call callee a' =>
      cases hfollow
      exact enteredFrom_congr (Activation.calledFrom_of_identity (congrArg Prod.fst hkeeps)) _
  | leave =>
      cases hfollow
      rfl
  | unwind levels =>
      have hrest := enteredFrom_unwind hfollow
      cases callers with
      | nil => cases hfollow
      | cons caller callers => exact hrest

end Keeps

/-! ## What all scripts of a run have in common -/

/-- What a move makes of its script has a property, and so has a script that it calls. -/
def Move.All (P : Activation → Prop) : Move → Prop
  | .next b => P b
  | .call callee b => P callee ∧ P b
  | .leave | .unwind _ => True

theorem Move.All.and {P Q : Activation → Prop} (hp : m.All P) (hq : m.All Q) :
    m.All fun a => P a ∧ Q a := by
  cases m with
  | next b => exact ⟨hp, hq⟩
  | call callee b => exact ⟨⟨hp.1, hq.1⟩, hp.2, hq.2⟩
  | leave => trivial
  | unwind levels => trivial

theorem Move.All.imp {P Q : Activation → Prop} (h : m.All P) (himp : ∀ b, P b → Q b) :
    m.All Q := by
  cases m with
  | next b => exact himp b h
  | call callee b => exact ⟨himp callee h.1, himp b h.2⟩
  | leave => trivial
  | unwind levels => trivial

/-- A command that does not end its run at once was performed, and its move was carried out. -/
theorem performed_of_start [Sink ω] {settings : Settings} {words : List String}
    {s₀ s : Session σ ω}
    (h : (Launch.command words).start settings s₀ = (.running activations, s)) :
    ∃ inv m s₁ s₂, Invocation.bind words none = .ok inv ∧
      Performed settings none freshCommand inv s₁ m s₂ ∧
      (follow none [] m).exec s₂ = (.ok (0, activations), s) := by
  rw [Launch.start] at h
  split at h
  · cases h
  · obtain ⟨m, s₂, hmove, hfollow⟩ := Act.exec_bind_eq_ok.mp (exec_of_settle h)
    rw [exec_located_eq_ok, dispatch] at hmove
    obtain ⟨inv, s₁, hwords, hperform⟩ := Act.exec_bind_eq_ok.mp hmove
    exact ⟨inv, m, s₁, s₂, (commandOf_ok hwords).1, performed_of_ok hperform, hfollow⟩

section All

variable [Sink ω] {settings : Settings} {P : Activation → Prop}
  (hleave : ∀ {inherited a levels left a'} {s s' : Session σ ω}, P a →
    (leaveLoops inherited a levels a.replays).exec s = (.ok (left, a'), s') → P a')

include hleave

omit [Sink ω] in
theorem unwind_all {levels left : Nat} (hall : ∀ a ∈ activations, P a)
    (h : (unwind inherited levels activations : Act σ ω _).exec s = (.ok (left, rest), s')) :
    ∀ a ∈ rest, P a := by
  induction activations generalizing levels s with
  | nil =>
      cases h
      exact hall
  | cons a callers ih =>
      obtain ⟨ha, hcallers⟩ := List.forall_mem_cons.mp hall
      rw [unwind] at h
      obtain ⟨⟨remaining, a'⟩, s₁, hleft, h₁⟩ := Act.exec_bind_eq_ok.mp h
      cases remaining with
      | zero =>
          cases h₁
          exact List.forall_mem_cons.mpr ⟨hleave ha hleft, hcallers⟩
      | succ remaining => exact ih hcallers h₁

omit [Sink ω] in
/-- A property of what a move makes of its script, and of the callers, is one of all scripts that go
on. -/
theorem all_of_follow {callers : List Activation} {left : Nat}
    (hm : m.All P) (hcallers : ∀ a ∈ callers, P a)
    (h : (follow inherited callers m : Act σ ω _).exec s = (.ok (left, rest), s')) :
    ∀ a ∈ rest, P a := by
  cases m with
  | next b =>
      cases h
      exact List.forall_mem_cons.mpr ⟨hm, hcallers⟩
  | call callee b =>
      cases h
      exact List.forall_mem_cons.mpr ⟨hm.1, List.forall_mem_cons.mpr ⟨hm.2, hcallers⟩⟩
  | leave =>
      cases h
      exact hcallers
  | unwind levels => exact unwind_all hleave hcallers h

/-- What every move of a run keeps, and the loss of loops as well, holds of all scripts that are
running in it. -/
theorem all_of_leads {start : Conf σ ω} (hadvance : ∀ {inherited a callers m} {s s' : Session σ ω},
      Leads settings start (.running (a :: callers), s) → P a →
      Advanced settings inherited a s m s' → m.All P)
    (hstart : ∀ activations s, start = (.running activations, s) → ∀ a ∈ activations, P a)
    {s' : Session σ ω} (h : Leads settings start (.running rest, s')) :
    ∀ a ∈ rest, P a := by
  have hall : ∀ activations s, (.running rest, s') = ((.running activations, s) : Conf σ ω) →
      ∀ a ∈ activations, P a := by
    refine Leads.induction
      (P := fun c => ∀ activations s, c = (.running activations, s) → ∀ a ∈ activations, P a)
      hstart (fun {xs s} hleads hxs => ?_) h
    intro xs' s₁ hstep
    have hturn : (turn settings none xs).exec s = (.ok (0, xs'), s₁) := exec_of_settle hstep
    cases xs with
    | nil =>
        cases hturn
        exact fun a ha => nomatch ha
    | cons a callers =>
        obtain ⟨ha, hcallers⟩ := List.forall_mem_cons.mp (hxs _ _ rfl)
        rw [turn] at hturn
        obtain ⟨m, s₂, hmove, hfollow⟩ := Act.exec_bind_eq_ok.mp hturn
        exact all_of_follow hleave (hadvance hleads ha (advanced_of_ok hmove)) hcallers hfollow
  exact hall rest s' rfl

/-- The same for a top-level run: what is asked of its first script, or of its command. -/
theorem all_of_launch {launch : Launch} {s₀ : Session σ ω}
    (hscript : ∀ source feed, launch = .script source feed → P (freshScript source 0 feed))
    (hcommand : ∀ {words inv m} {s s' : Session σ ω}, launch = .command words →
      Invocation.bind words none = .ok inv →
      Performed settings none freshCommand inv s m s' → m.All P)
    (hadvance : ∀ {inherited a callers m} {s s' : Session σ ω},
      Leads settings (launch.start settings s₀) (.running (a :: callers), s) → P a →
      Advanced settings inherited a s m s' → m.All P)
    {s : Session σ ω} (h : Leads settings (launch.start settings s₀) (.running activations, s)) :
    ∀ a ∈ activations, P a := by
  refine all_of_leads hleave hadvance (fun activations s hstart => ?_) h
  cases launch with
  | script source feed =>
      cases hstart
      exact List.forall_mem_singleton.mpr (hscript source feed rfl)
  | command words =>
      obtain ⟨inv, m, s₁, s₂, hbind, hperformed, hfollow⟩ := performed_of_start hstart
      exact all_of_follow hleave (hcommand rfl hbind hperformed) (List.forall_mem_nil P) hfollow

end All

end InputScript.Machine
