import InputScript.Proofs.FirstWord
import InputScript.Proofs.Origin
import InputScript.Proofs.Rules

/-!
# What a run may do

A line that is executed keeps the rules that admit the command on it, and so does a whole run.  What
is asked of the rules beyond single commands is that they allow the first word of a line to be told.
Every line that comes from a source has one; the lines that a loop holds came from a source as well
(`Legible`).

## Main results

* `Act.Keeps.advance` — a script keeps the rules with its next line.
* `keeps_of_leads` — wherever a run gets to, it has kept the rules, except that it may have crashed
  for a `break` that no loop takes.
-/

namespace InputScript

open Device (Sink Event)
open Script (Line RawLine IsLine)

variable {σ ω α β : Type} [Host σ] [Sink ω] {settings : Settings}

/-! ## First words -/

/-- The rules allow a line to be judged by its first word. -/
def Rules.Judges (rules : Rules σ ω settings) (line : Line) : Prop :=
  Text.firstPiece line.text = none → rules.crash .noPiece

/-- The rules allow the lines that a script holds to be judged. -/
def Rules.Reads (rules : Rules σ ω settings) (a : Machine.Activation) : Prop :=
  ∀ frame ∈ a.frames, ∀ line ∈ frame.lines, rules.Judges line

/-- A line of a source has a first piece. -/
theorem Script.IsLine.judges {stream : List RawLine} {line : Line} (h : IsLine stream line)
    (rules : Rules σ ω settings) : rules.Judges line := by
  intro hnone
  obtain ⟨before, raw, after, text, -, -, -, htext, hkept⟩ := h
  rw [htext] at hkept
  obtain ⟨c, rest, hchars, hblank⟩ := Text.trim_cons hkept
  obtain ⟨piece, hpiece, -⟩ := Text.firstPiece_of_cons hchars hblank
  rw [htext, hpiece] at hnone
  cases hnone

namespace Rules.Reads

open Machine

variable {rules : Rules σ ω settings} {a a' : Activation} {input input' : List RawLine}

theorem push {frame : Frame} (h : rules.Reads a) (hframe : frame.lines = []) :
    rules.Reads (a.push frame) := by
  refine List.forall_mem_cons.mpr ⟨fun line hline => ?_, h⟩
  rw [hframe] at hline
  cases hline

/-- A line that is read can be judged, and so can those that are left. -/
theorem fetch {next : Script.Next} (h : rules.Reads a)
    (hfetch : a.fetch input = (next, a', input')) :
    rules.Reads a' ∧ ∀ line, next = .line line → rules.Judges line := by
  unfold Activation.fetch at hfetch
  split at hfetch
  · next replay _ _ =>
      split at hfetch
      · cases hfetch
        exact ⟨h, nofun⟩
      · next frame hframe =>
          have hheld := h _ (Activation.Grounded.mem_of_loopAt? hframe)
          split at hfetch
          · next line body hadvance =>
              cases hfetch
              obtain ⟨hmem, hlines⟩ := mem_of_advance hadvance
              refine ⟨fun g hg held hin => ?_, ?_⟩
              · rcases List.mem_or_eq_of_mem_set hg with hold | rfl
                · exact h g hold held hin
                · rw [Frame.lines, hlines] at hin
                  exact hheld held hin
              · rintro _ ⟨⟩
                exact hheld line hmem
          · cases hfetch
            exact ⟨h, nofun⟩
  · rcases hnext : Script.next a.feed.consumed (a.feed.rest input) with ⟨next', consumed⟩
    rw [hnext] at hfetch
    cases hfetch
    rw [← a.feed.length_read] at hnext
    refine ⟨h, fun line heq => ?_⟩
    exact ((Script.isLine_of_next _ _ hnext).1 line heq).2.judges rules

theorem upcoming (h : rules.Reads a) (input : List RawLine) :
    ∀ line ∈ (a.upcoming input).1, rules.Judges line := by
  unfold Activation.upcoming
  split
  · split
    · exact nofun
    · next frame hframe =>
        intro line hline
        exact h _ (Activation.Grounded.mem_of_loopAt? hframe) line (List.mem_of_mem_drop hline)
  · rw [← a.feed.length_read]
    intro line hline
    exact ((Script.isLine_of_readLinesFrom _ _).1 line hline).judges rules

end Rules.Reads

/-! ## Lines -/

/-- What the rules allow covers words that are executed with some variables. -/
structure Rules.AdmitsWords (rules : Rules σ ω settings) (words : List String) (env : Environment) :
    Prop where
  option : ∀ name rest verb, words = name :: rest → Verb.ofName? name = some verb →
    verb.acceptsOptions = true → ∀ c, Invocation.OptionTooLarge rest c → rules.crash c
  command : ∀ line inv, Invocation.bind words line = .ok inv → rules.Admits inv env

namespace Act.Keeps

open Machine

variable {rules : Rules σ ω settings} {act : Act σ ω α} {s : Session σ ω} {a : Activation}
  {inherited : Option Countdown} {inv : Invocation} {line : Line}

theorem firstWord (h : rules.Judges line) :
    CrashesOnly rules.crash (Word.firstWord line.text) := by
  refine (Word.crashes_firstWord line.text).mono ?_
  rintro c ⟨rfl, hpiece⟩
  exact h hpiece

/-- An action that always answers keeps the rules if it leaves the device alone. -/
theorem of_preserves (hok : ∃ a s', act.exec s = (.ok a, s'))
    (h : act.Preserves Session.device) : Keeps rules act s := by
  obtain ⟨a, s', hexec⟩ := hok
  exact of_ok hexec (h.of_eq hexec)

theorem located (h : Keeps rules act s) (source : String) (number : Option Nat) :
    Keeps rules (Machine.located source number act) s :=
  h.tryCatch (fun _ _ => throw_fault _) fun _ => rfl

omit [Sink ω] in
theorem publish_preserves (c : Option Countdown) :
    (Machine.publish c : Act σ ω Unit).Preserves Session.device := by
  intro s
  rcases c with _ | ⟨remaining, _ | deadline⟩ <;> rfl

theorem publish (c : Option Countdown) : Keeps rules (Machine.publish c : Act σ ω Unit) s :=
  of_preserves ⟨_, _, exec_publish c s⟩ (publish_preserves c)

theorem leaveLoops (levels : Nat) (replays : List Replay) :
    Keeps rules (Machine.leaveLoops inherited a levels replays : Act σ ω _) s :=
  of_preserves (exec_leaveLoops inherited a levels replays s)
    (leaveLoops_preserves publish_preserves (fun _ _ => rfl) _ _ _ _)

theorem endIteration (replay : Replay) (outer : List Replay) :
    Keeps rules (Machine.endIteration inherited a replay outer : Act σ ω Move) s := by
  unfold Machine.endIteration
  split
  · exact pure _
  · next frame _ =>
      have htime : Keeps rules (timeIsUp frame.deadline : Act σ ω Bool) s := by
        cases frame.deadline with
        | none => exact pure _
        | some deadline => exact readClock.andThen fun _ _ => pure _
      refine htime.andThen fun timeDone _ => ?_
      split
      · exact (publish _).andThen fun _ _ => (note _).andThen fun _ _ => pure _
      · exact (note _).andThen fun _ _ => (publish _).andThen fun _ _ => pure _

theorem checkDepth (depth : Nat) (verb : String) :
    Keeps rules (Machine.checkDepth settings depth verb : Act σ ω Unit) s := by
  unfold Machine.checkDepth
  split
  · exact fail _
  · exact pure _

theorem drainInput (upTo : Option Nat) :
    Keeps rules (Machine.drainInput a upTo : Act σ ω Unit) s :=
  of_ok rfl rfl

theorem collect (h : ∀ line ∈ (a.upcoming s.input).1, rules.Judges line) :
    Keeps rules (Machine.collect a : Act σ ω _) s := by
  unfold Machine.collect
  refine get_bind ?_
  dsimp only
  split
  · exact of_ok rfl rfl
  · next hobscure =>
      obtain ⟨hmem, hword⟩ := of_takeBody_obscure hobscure
      refine (drainInput _).andThen fun _ _ => (lift _ ?_).located _ _
      exact (firstWord (h _ hmem)).of_eq hword
  · split
    · exact (drainInput _).andThen fun _ _ => throw_fault _
    · exact (drainInput _).andThen fun _ _ => fail _

theorem loopTime (inv : Invocation) : Keeps rules (Machine.loopTime inv : Act σ ω _) s := by
  unfold Machine.loopTime
  split
  · exact fail _
  · exact pure _
  · exact pure _

omit [Host σ] [Sink ω] in
/-- The time that a loop is given is one of its numerals. -/
theorem mem_numerals_of_loopTime {text : Option String} {s s' : Session σ ω}
    (hverb : inv.verb = .loop) (h : (Machine.loopTime inv : Act σ ω _).exec s = (.ok text, s')) :
    ∀ t ∈ text, t ∈ inv.numerals := by
  intro t ht
  rw [Invocation.numerals, hverb, List.mem_append, Option.mem_toList, Option.mem_toList]
  unfold Machine.loopTime at h
  split at h
  · cases h
  · next htime _ =>
      cases h
      cases ht
      exact .inl htime
  · cases h
    exact .inr ht

theorem loopLimits (h : rules.Admits inv s.environment) (hverb : inv.verb = .loop) :
    Keeps rules (Machine.loopLimits inv : Act σ ω _) s := by
  refine (ofExcept _ _).andThen fun count _ => (loopTime inv).bind fun text _ htext => ?_
  refine duration_bind (fun t ht => ?_) fun time _ _ => ?_
  · exact h.numeral t (mem_numerals_of_loopTime hverb htext t ht)
  · split
    · exact fail _
    · exact pure _

theorem judge (h : rules.Admits inv s.environment) (hverb : inv.verb = .cond) :
    Keeps rules (Machine.judge settings inv : Act σ ω Bool) s := by
  have hnumeral := h.numeral
  rw [Invocation.numerals, hverb] at hnumeral
  refine (noteAll _).andThen fun _ _ => (lift _ ?_).andThen fun _ _ => (note _).andThen fun _ _ => pure _
  refine (Condition.crashes_evaluate inv.args _).mono ?_
  rintro c ⟨token, htoken, hlarge⟩
  exact hnumeral token htoken c hlarge

theorem omitLine (o : Omission) (h : rules.Judges line) :
    Keeps rules (Machine.omitLine a o line : Act σ ω Move) s := by
  unfold Machine.omitLine
  refine (lift _ (firstWord h)).andThen fun word _ => ?_
  split
  · exact pure _
  · exact pure _
  · exact (note _).andThen fun _ _ => pure _
  · split
    · split
      · exact fail _
      · exact (note _).andThen fun _ _ => pure _
    · exact pure _
  · exact pure _

theorem finish (a : Activation) : Keeps rules (Machine.finish a : Act σ ω Move) s := by
  unfold Machine.finish
  split
  · exact throw_fault _
  · split
    · exact (note _).andThen fun _ _ => pure _
    · exact pure _

theorem executePlain (depth : Nat) (h : rules.Admits inv s.environment) :
    Keeps rules (Machine.executePlain settings depth inv : Act σ ω _) s := by
  unfold Machine.executePlain
  split
  · next path args hverb hargs =>
      refine (callScript depth inv path fun hnul => ?_).andThen fun _ _ => pure _
      exact h.path hverb path (by rw [hargs]; rfl) hnul
  · exact (simple h).andThen fun _ _ => pure _

theorem startLoop (h : rules.Admits inv s.environment) (hverb : inv.verb = .loop)
    (hreads : rules.Reads a) :
    Keeps rules (Machine.startLoop settings inherited a inv : Act σ ω Move) s := by
  unfold Machine.startLoop
  refine (loopLimits h hverb).andThen fun limits _ => readClock.andThen fun now _ => ?_
  refine (checkDepth _ _).andThen fun _ s₁ => (collect ?_).andThen fun _ _ => ?_
  · exact (hreads.push rfl).upcoming s₁.input
  · exact (note _).andThen fun _ _ => (publish _).andThen fun _ _ => pure _

theorem startBreak : Keeps rules (Machine.startBreak inherited a inv : Act σ ω Move) s := by
  have hlevels : Keeps rules (Machine.breakLevels inv : Act σ ω Nat) s := by
    unfold Machine.breakLevels
    split
    · exact pure _
    · exact ofExcept _ _
  refine hlevels.andThen fun levels _ => ?_
  dsimp only
  split
  · exact fail _
  · exact (note _).andThen fun _ _ => (leaveLoops _ _).andThen fun _ _ => pure _

theorem perform (h : rules.Admits inv s.environment) (hreads : rules.Reads a) :
    Keeps rules (Machine.perform settings inherited a inv : Act σ ω Move) s := by
  unfold Machine.perform
  split
  · next hverb => exact startLoop h hverb hreads
  · exact startBreak
  · next hverb =>
      exact (judge h hverb).andThen fun _ _ => (checkDepth _ _).andThen fun _ _ => pure _
  · unfold Machine.startElse
    split
    · exact pure _
    · exact fail _
  · unfold Machine.endCond
    split
    · exact pure _
    · exact fail _
  · exact (noteAll _).andThen fun _ _ => (publish _).andThen fun _ _ => finish _
  · exact (executePlain _ h).andThen fun _ _ => pure _

theorem dispatch {words : List String} (hwords : words ≠ [])
    (h : rules.AdmitsWords words s.environment) (hreads : rules.Reads a) (number : Option Nat) :
    Keeps rules (Machine.dispatch settings inherited a words number : Act σ ω Move) s := by
  have hcommand : Keeps rules (Machine.commandOf words number : Act σ ω Invocation) s := by
    refine (lift _ ((Invocation.crashes_bind words number).mono ?_)).andThen fun _ _ =>
      (note _).andThen fun _ _ => pure _
    rintro c (⟨hnil, -⟩ | ⟨name, rest, verb, hcons, hverb, haccepts, hlarge⟩)
    · exact absurd hnil hwords
    · exact h.option name rest verb hcons hverb haccepts c hlarge
  refine hcommand.bind fun inv s₁ hexec => ?_
  obtain ⟨hbind, rfl⟩ := commandOf_ok hexec
  exact perform (h.command number inv hbind) hreads

/-- A script keeps the rules with its next line if they admit the words of the line. -/
theorem advance (hreads : rules.Reads a)
    (hwords : ∀ line a₁ input words s₁, a.fetch s.input = (.line line, a₁, input) →
      a₁.omission = none →
      (Expansion.split settings.shell line.text (some line.number)).exec { s with input } =
        (.ok words, s₁) →
      words ≠ [] → rules.AdmitsWords words s₁.environment) :
    Keeps rules (Machine.advance settings inherited a : Act σ ω Move) s := by
  unfold Machine.advance
  refine get_bind ?_
  rcases hfetch : a.fetch s.input with ⟨next, a₁, input⟩
  obtain ⟨hreads₁, hjudge⟩ := hreads.fetch hfetch
  refine congr (exec_bind_of_ok (exec_set _ _)) rfl ?_
  cases next with
  | line line =>
      refine located ?_ _ _
      cases homit : a₁.omission with
      | some o => exact omitLine o (hjudge line rfl)
      | none =>
          refine (split _ _ _).bind fun words s₁ hsplit => ?_
          split
          · exact pure _
          · next hempty =>
              have hne : words ≠ [] := fun hnil => hempty (List.isEmpty_iff.mpr hnil)
              exact dispatch hne (hwords line a₁ input words s₁ hfetch homit hsplit hne) hreads₁ _
  | fault fault => exact throw_fault _
  | finished =>
      dsimp only
      split
      · exact endIteration _ _
      · exact finish _

/-! ## Steps -/

theorem unwind (levels : Nat) (activations : List Activation) :
    Keeps rules (Machine.unwind inherited levels activations : Act σ ω _) s := by
  induction activations generalizing levels s with
  | nil => exact pure _
  | cons a callers ih =>
      refine (leaveLoops _ _).andThen fun left _ => ?_
      dsimp only
      split
      · exact pure _
      · exact ih _

theorem follow (callers : List Activation) (m : Move) :
    Keeps rules (Machine.follow inherited callers m : Act σ ω _) s := by
  cases m with
  | next a => exact pure _
  | call callee a => exact pure _
  | leave => exact pure _
  | unwind levels => exact unwind levels callers

theorem abandon (f : Failure) (activations : List Activation) :
    Keeps rules (Machine.abandon inherited f activations : Act σ ω Failure) s := by
  induction activations generalizing f s with
  | nil => exact pure _
  | cons a callers ih =>
      refine (publish _).andThen fun _ _ => ?_
      split
      · exact pure _
      · exact ih _

end Act.Keeps

namespace Machine

variable {rules : Rules σ ω settings} {launch : Launch} {a : Activation} {m : Move}
  {s s' s₀ : Session σ ω}

/-- What a run may have done that began with a session. -/
structure Complies (rules : Rules σ ω settings) (s₀ : Session σ ω) (c : Conf σ ω) : Prop where
  device : rules.device s₀.device c.2.device
  crash : ∀ k, c.1 = .done (.crash k) → k = .strayBreak ∨ rules.crash k

theorem complies_of_settle {act : Act σ ω Move} (h : act.Keeps rules s)
    (activations callers : List Activation) :
    Complies rules s (settle activations (act >>= follow none callers) s) := by
  have hact : (act >>= follow none callers).Keeps rules s :=
    h.andThen fun m _ => .follow callers m
  generalize hend : settle activations (act >>= follow none callers) s = c
  obtain ⟨status, s'⟩ := c
  have hexec := exec_of_settle hend
  cases status with
  | running left => exact ⟨(hact.of_eq hexec).1, nofun⟩
  | done outcome =>
      cases outcome with
      | success => exact ⟨(hact.of_eq hexec).1, nofun⟩
      | failure f =>
          obtain ⟨f₀, s₁, hfault, habandon⟩ := hexec
          have hrest : (abandon none f₀ activations : Act σ ω Failure).Keeps rules s₁ :=
            .abandon f₀ activations
          exact ⟨rules.trans (hact.of_eq hfault).1 (hrest.of_eq habandon).1, nofun⟩
      | crash k =>
          rcases hexec with hcrash | ⟨levels, left, hstray⟩
          · refine ⟨(hact.of_eq hcrash).1, ?_⟩
            rintro _ ⟨⟩
            exact .inr ((hact.of_eq hcrash).2 k rfl)
          · rw [settle_of_stray hstray] at hend
            cases hend
            refine ⟨(hact.of_eq hstray).1, ?_⟩
            rintro _ ⟨⟩
            exact .inl rfl

/-! ## Runs -/

/-- A command that was launched has nothing more to read. -/
structure Activation.Spent (a : Activation) : Prop where
  pending : a.feed.pending = some []
  replays : a.replays = []
  frames : ∀ frame ∈ a.frames, frame.lines = []

theorem Activation.Spent.fetch (h : a.Spent) (input : List RawLine) :
    ∃ a₁ input', a.fetch input = (.finished, a₁, input') ∧ a₁.replays = [] := by
  unfold Activation.fetch
  simp only [h.replays, Feed.rest, h.pending, Option.getD_some, Script.next]
  exact ⟨_, _, rfl, rfl⟩

theorem Activation.Spent.leave (h : a.Spent) {inherited : Option Countdown}
    (hadvanced : Advanced settings inherited a s m s') : m = .leave := by
  obtain ⟨a₁, input, hend, hreplays₁⟩ := h.fetch s.input
  cases hadvanced with
  | omitted hfetch _ _ =>
      rw [hend] at hfetch
      cases hfetch
  | blank hfetch _ _ =>
      rw [hend] at hfetch
      cases hfetch
  | performed hfetch _ _ _ _ =>
      rw [hend] at hfetch
      cases hfetch
  | iterated hfetch hreplays _ =>
      rw [hend] at hfetch
      cases hfetch
      rw [hreplays₁] at hreplays
      cases hreplays
  | finished _ _ _ _ => rfl

/-- The command that is launched enters no loop: there are no lines that could be its body. -/
theorem Performed.spent {inherited : Option Countdown} {inv : Invocation}
    (hline : Performed settings inherited freshCommand inv s m s') :
    m.All fun b => b.Grounded ∨ b.Spent := by
  have hfresh : freshCommand.Spent := ⟨rfl, rfl, nofun⟩
  cases hline with
  | simple _ _ => exact .inr hfresh
  | call _ _ hcall =>
      obtain ⟨feed, s₁, -, rfl⟩ := callScript_ok hcall
      exact ⟨.inl nofun, .inr hfresh⟩
  | loop _ _ _ _ hbody _ => nomatch hbody.taken
  | @leave levels left a' _ _ _ _ hleave =>
      have ha' : a' = freshCommand := by
        cases levels <;> cases hleave <;> rfl
      split
      · rw [ha']
        exact .inr hfresh
      · trivial
  | @cond truth _ _ _ _ =>
      have hframes : ∀ frame ∈ [Frame.cond { line := inv.line }], frame.lines = [] :=
        List.forall_mem_singleton.mpr rfl
      cases truth <;> exact .inr ⟨rfl, rfl, hframes⟩
  | otherwise _ hframes _ => cases hframes
  | close _ hframes => cases hframes
  | exit _ _ => trivial

/-- The lines that the scripts of a run hold are lines of their sources. -/
theorem legible_of_leads {activations : List Activation}
    (h : Leads settings (launch.start settings s₀) (.running activations, s)) :
    ∀ a ∈ activations, a.Grounded ∨ a.Spent := by
  refine all_of_launch (fun {_ _ levels _ _} _ _ ha hleave => ?_) (fun _ _ _ => .inl nofun)
    (fun _ _ hperformed => hperformed.spent) (fun _ ha hadvanced => ?_) h
  · rcases ha with hgrounded | hspent
    · exact .inl (grounded_leaveLoops hgrounded hleave)
    · rw [hspent.replays] at hleave
      cases levels <;> cases hleave <;> exact .inr ⟨hspent.pending, rfl, hspent.frames⟩
  · rcases ha with hgrounded | hspent
    · exact Move.All.imp (hadvanced.grounded hgrounded) fun _ => .inl
    · rw [hspent.leave hadvanced]
      trivial

/-- A script that holds lines of its source only. -/
theorem reads_of_legible (h : a.Grounded ∨ a.Spent) (rules : Rules σ ω settings) :
    rules.Reads a := by
  intro frame hframe line hline
  rcases h with hgrounded | hspent
  · exact ((hgrounded frame hframe).held line hline).judges rules
  · rw [hspent.frames frame hframe] at hline
    cases hline

theorem complies_start
    (hwords : ∀ words activations s, Dispatches settings launch s₀ words activations s →
      rules.AdmitsWords words s.environment) :
    Complies rules s₀ (launch.start settings s₀) := by
  cases launch with
  | script source feed => exact ⟨rules.refl _, fun c hc => by cases hc⟩
  | command words =>
      rw [Launch.start]
      split
      · exact ⟨rules.refl _, fun c hc => by cases hc⟩
      · next hempty =>
          have hne : words ≠ [] := fun hnil => hempty (List.isEmpty_iff.mpr hnil)
          have hreads : rules.Reads freshCommand := List.forall_mem_nil _
          refine complies_of_settle (.located (.dispatch hne ?_ hreads none) _ _) _ _
          exact hwords words _ s₀ (.command rfl hne)

/-- Wherever a run gets to, it has kept the rules that admit the words that it executes.  It may have
crashed for a `break` that no loop takes, though. -/
theorem keeps_of_leads
    (hwords : ∀ words activations s, Dispatches settings launch s₀ words activations s →
      rules.AdmitsWords words s.environment)
    {c : Conf σ ω} (h : Leads settings (launch.start settings s₀) c) : Complies rules s₀ c := by
  refine Leads.induction (complies_start hwords) (fun {activations s} hleads hsofar => ?_) h
  cases activations with
  | nil => exact ⟨hsofar.device, nofun⟩
  | cons a callers =>
      have hreads := reads_of_legible (legible_of_leads hleads a List.mem_cons_self) rules
      have hnext : Complies rules s (step settings (a :: callers) s) := by
        refine complies_of_settle (.advance hreads ?_) _ _
        intro line a₁ input words s₁ hfetch homit hsplit hne
        exact hwords words _ s₁ (.line (.intro hleads hfetch homit) hsplit hne)
      exact ⟨rules.trans hsofar.device hnext.device, hnext.crash⟩

end Machine

end InputScript
