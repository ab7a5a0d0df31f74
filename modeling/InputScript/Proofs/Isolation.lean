import InputScript.Proofs.Blocks
import InputScript.Proofs.FailStop
import InputScript.Proofs.Intake
import InputScript.Proofs.Lifetime
import InputScript.Proofs.LoopVariables

/-!
# Scripts that are called

A script that is called shares the session with its caller: the environment, the device, the clock and
the standard input.  It has no part in the caller's blocks, and the caller goes on where it was.

The scripts of a call are those that are run until the stack is as low again as it was before
(`InCall`).  All the while the caller and its callers lie untouched below them (`InCall.suffix`),
whatever the scripts do.  The loop variables are another matter: they are shared, and written by
every loop of the call.  That they are the caller's again in the end rests on what was said of
notices.

## Main results

* `InCall.input_eq` — a call whose scripts have lines of their own leaves the standard input alone.
* `InCall.told` — a notice holds at every line of a call.
* `script_call_isolated` — what a call leaves behind, and what a `break` in it cannot do.
-/

namespace InputScript.Machine

open Device (Sink)
open Script (Line RawLine)

variable {σ ω : Type}

/-! ## The scripts of a call -/

section Calls

variable [Host σ] [Sink ω]

/-- The machine is in a call: from its first line on, the stack was higher than it was before. -/
inductive InCall (settings : Settings) (callee : Activation) (lower : List Activation)
    (s₁ : Session σ ω) : List Activation → Session σ ω → Prop
  | begins : InCall settings callee lower s₁ (callee :: lower) s₁
  | goes {activations next : List Activation} {s s' : Session σ ω}
      (hcall : InCall settings callee lower s₁ activations s)
      (hstep : step settings activations s = (.running next, s'))
      (hhigh : lower.length < next.length) : InCall settings callee lower s₁ next s'

/-- The script that was called ends, since its lines do or by an `exit`; with it go the scripts that
go on, and the session. -/
inductive Returns (settings : Settings) (callee : Activation) (lower : List Activation)
    (s₁ : Session σ ω) : List Activation → Session σ ω → Prop
  | intro {child : Activation} {rest next : List Activation} {s s' s'' : Session σ ω}
      (hcall : InCall settings callee lower s₁ (child :: rest) s)
      (hheight : rest.length = lower.length)
      (hends : (advance settings (countdown? none rest) child).exec s = (.ok .leave, s'))
      (hstep : step settings (child :: rest) s = (.running next, s'')) :
      Returns settings callee lower s₁ next s''

/-- A line of the call is about to be split. -/
inductive SplitsInCall (settings : Settings) (callee : Activation) (lower : List Activation)
    (s₁ : Session σ ω) : Line → List Activation → Session σ ω → Prop
  | intro {a a₁ : Activation} {rest : List Activation} {s : Session σ ω} {line : Line}
      {input : List RawLine} (hcall : InCall settings callee lower s₁ (a :: rest) s)
      (hfetch : a.fetch s.input = (.line line, a₁, input)) (homit : a₁.omission = none) :
      SplitsInCall settings callee lower s₁ line (a₁ :: rest) { s with input }

/-- A command of the call is about to be performed. -/
inductive PerformsInCall (settings : Settings) (callee : Activation) (lower : List Activation)
    (s₁ : Session σ ω) : Invocation → List Activation → Session σ ω → Prop
  | intro {line : Line} {words : List String} {inv : Invocation} {activations : List Activation}
      {s s' s'' : Session σ ω} (hline : SplitsInCall settings callee lower s₁ line activations s)
      (hsplit : (Expansion.split settings.shell line.text (some line.number)).exec s =
        (.ok words, s'))
      (hcommand : (commandOf words (some line.number)).exec s' = (.ok inv, s'')) :
      PerformsInCall settings callee lower s₁ inv activations s''

end Calls

/-! ## The caller -/

section Caller

variable [Host σ] [Sink ω] {settings : Settings} {callee : Activation} {lower : List Activation}
  {s₁ : Session σ ω} {activations : List Activation} {s s' : Session σ ω}

/-- A step that the run goes on after: a move, and what is made of it. -/
theorem exec_of_step {a : Activation} {callers next : List Activation}
    (h : step settings (a :: callers) s = (.running next, s')) :
    ∃ m s₁, (advance settings (countdown? none callers) a).exec s = (.ok m, s₁) ∧
      (follow none callers m).exec s₁ = (.ok (0, next), s') :=
  Act.exec_bind_eq_ok.mp (exec_of_settle h)

/-- In a call the scripts that stood there before it lie unchanged below. -/
theorem InCall.suffix (h : InCall settings callee lower s₁ activations s) :
    ∃ top rest, activations = top :: rest ∧ lower <:+ rest := by
  induction h with
  | begins => exact ⟨callee, lower, rfl, List.suffix_rfl⟩
  | @goes activations next s s' _ hstep hhigh ih =>
      obtain ⟨top, rest, rfl, hsuffix⟩ := ih
      obtain ⟨m, s₂, -, hfollow⟩ := exec_of_step hstep
      cases m with
      | next b =>
          cases hfollow
          exact ⟨b, rest, rfl, hsuffix⟩
      | call callee' b =>
          cases hfollow
          exact ⟨callee', b :: rest, rfl, hsuffix.trans (List.suffix_cons b rest)⟩
      | leave =>
          cases hfollow
          cases next with
          | nil => exact absurd hhigh (Nat.not_lt_zero _)
          | cons top' rest' =>
              refine ⟨top', rest', rfl, ?_⟩
              rcases List.suffix_cons_iff.mp hsuffix with hall | hbelow
              · rw [hall] at hhigh
                exact absurd hhigh (Nat.lt_irrefl _)
              · exact hbelow
      | unwind levels =>
          cases next with
          | nil => exact absurd hhigh (Nat.not_lt_zero _)
          | cons b rest' =>
              obtain ⟨above, c, _, _, _, _, rfl, -, -⟩ := unwind_ok hfollow
              have hbelow : rest' <:+ above ++ c :: rest' :=
                (List.suffix_cons c rest').trans (List.suffix_append above _)
              have hlength : lower.length ≤ rest'.length := Nat.le_of_lt_succ hhigh
              exact ⟨b, rest', rfl, List.suffix_of_suffix_length_le hsuffix hbelow hlength⟩

/-- When the script that was called ends, those that stood there before the call go on. -/
theorem Returns.lower_eq {next : List Activation}
    (h : Returns settings callee lower s₁ next s') :
    next = lower ∧ ∃ child s, InCall settings callee lower s₁ (child :: lower) s ∧
      (advance settings (countdown? none lower) child).exec s = (.ok .leave, s') := by
  obtain ⟨hcall, hheight, hends, hstep⟩ := h
  obtain ⟨top, rest, hcons, hsuffix⟩ := hcall.suffix
  cases hcons
  obtain rfl := hsuffix.eq_of_length hheight.symm
  obtain ⟨m, s₂, hmove, hfollow⟩ := exec_of_step hstep
  rw [hends] at hmove
  cases hmove
  cases hfollow
  exact ⟨rfl, _, _, hcall, hends⟩

/-! ## The standard input -/

/-- A call whose scripts have lines of their own leaves the standard input alone. -/
theorem InCall.input_eq (hown : ∀ {top rest s},
      InCall settings callee lower s₁ (top :: rest) s → top.feed.pending ≠ none)
    (h : InCall settings callee lower s₁ activations s) : s.input = s₁.input := by
  induction h with
  | begins => rfl
  | goes hcall hstep _ ih =>
      obtain ⟨top, rest, rfl, -⟩ := hcall.suffix
      obtain ⟨m, s₂, hmove, hfollow⟩ := exec_of_step hstep
      obtain ⟨feed, hreads, -⟩ := (advanced_of_ok hmove).fed
      rw [(follow_input none rest m).of_eq hfollow, hreads.input_eq (hown hcall)]
      exact ih

/-! ## The loop variables -/

/-- In a call all scripts are sound, and a notice that held before it holds at every line. -/
theorem InCall.told {notice : Notice}
    (hshell : ∀ {line activations s}, SplitsInCall settings callee lower s₁ line activations s →
      ShellKeeps settings.shell line s)
    (hspares : ∀ {inv activations s}, PerformsInCall settings callee lower s₁ inv activations s →
      notice.Spares inv)
    (hcallee : Sound callee)
    (hshown : notice.Says s₁.environment (countdown? none (callee :: lower)))
    (h : InCall settings callee lower s₁ activations s) :
    (∃ top upper, activations = top :: upper ++ lower ∧ ∀ b ∈ top :: upper, Sound b) ∧
      notice.Says s.environment (countdown? none activations) := by
  induction h with
  | begins => exact ⟨⟨callee, [], rfl, List.forall_mem_singleton.mpr hcallee⟩, hshown⟩
  | @goes activations next s s' hcall hstep hhigh ih =>
      obtain ⟨⟨top, upper, rfl, hsound⟩, hshown⟩ := ih
      obtain ⟨htop, hupper⟩ := List.forall_mem_cons.mp hsound
      obtain ⟨m, s₂, hmove, hfollow⟩ := exec_of_step hstep
      have hadvanced := advanced_of_ok hmove
      obtain ⟨hall, hstays⟩ := hadvanced.sound htop fun line a₁ input hfetch homit =>
        hshell (.intro hcall hfetch homit)
      have htold := hadvanced.told htop hshown fun ⟨hfetch, homit, hsplit, hbind⟩ =>
        hspares (.intro (.intro hcall hfetch homit) hsplit (exec_commandOf hbind _))
      refine ⟨?_, Notice.of_follow hstays htold hfollow⟩
      cases m with
      | next b =>
          cases hfollow
          exact ⟨b, upper, rfl, List.forall_mem_cons.mpr ⟨hall, hupper⟩⟩
      | call callee' b =>
          cases hfollow
          refine ⟨callee', b :: upper, rfl, ?_⟩
          exact List.forall_mem_cons.mpr ⟨hall.1, List.forall_mem_cons.mpr ⟨hall.2, hupper⟩⟩
      | leave =>
          cases hfollow
          cases upper with
          | nil => exact absurd hhigh (Nat.lt_irrefl _)
          | cons top' upper => exact ⟨top', upper, rfl, hupper⟩
      | unwind levels => exact absurd rfl (hstays levels)

/-- A call is a part of the run. -/
theorem InCall.leads (h : InCall settings callee lower s₁ activations s) :
    Leads settings (.running (callee :: lower), s₁) (.running activations, s) := by
  induction h with
  | begins => exact .refl _
  | goes _ hstep _ ih =>
      refine ih.trans ?_
      rw [← hstep]
      exact .step _ _

end Caller

/-! ## The count of the innermost loop -/

/-- The count that is shown is that of the innermost loop of some scripts; without a loop there is
none. -/
def ShowsCount (env : Environment) (activations : List Activation) : Prop :=
  env.get? loopCountName =
    (activeLoops activations).head?.map fun frame => countText frame.remaining

/-- What the count alone is to say. -/
def countNotice : Notice where
  names := [loopCountName]
  Says env c := env.get? loopCountName = c.map fun c => countText c.remaining
  congr h hsame := (hsame _ List.mem_cons_self).trans h
  erased env := by
    rw [Environment.get?_erase, if_neg loopCountName_ne, Environment.get?_erase, if_pos rfl]
    rfl
  written env c time _ := by
    rw [Environment.get?_set, if_neg loopCountName_ne, Environment.get?_set, if_pos rfl]
    rfl

theorem showsCount_iff (env : Environment) (activations : List Activation) :
    ShowsCount env activations ↔ countNotice.Says env (countdown? none activations) := by
  have hmap : ((activeLoops activations).head?.map LoopFrame.toCountdown).map
      (fun c => countText c.remaining) =
      (activeLoops activations).head?.map fun frame => countText frame.remaining :=
    Option.map_map _ _ _
  rw [countdown?_activeLoops, ShowsCount, ← hmap]
  rfl

/-! ## Calls -/

variable {activations : List Activation}

section Isolated

variable [Host σ] [Sink ω] {settings : Settings} {inherited : Option Countdown}
  {a b callee : Activation} {inv : Invocation} {s s₁ : Session σ ω} {m : Move}

/-- A command that calls a script leaves its own script as it is, and the environment and the
standard input too. -/
theorem Performed.calls (h : Performed settings inherited a inv s m s₁)
    (hm : m = .call callee b) :
    a = b ∧ Steady settings callee ∧ callee.loops = [] ∧ s₁.shared = s.shared := by
  cases h with
  | call _ _ hcall =>
      cases hm
      have hshared := (Act.Local.callScript _ _ _ _).preserves.of_eq hcall
      obtain ⟨feed, s₂, -, rfl⟩ := callScript_ok hcall
      exact ⟨rfl, .fresh rfl rfl rfl, rfl, hshared⟩
  | leave _ _ _ _ => split at hm <;> cases hm
  | simple _ _ | loop _ _ _ _ _ _ | cond _ _ _ | otherwise _ _ _ | close _ _ | exit _ _ => cases hm

omit [Host σ] [Sink ω] in
/-- A `break` does not look beyond the loops of its own script. -/
theorem exec_startBreak_of_lt [Host σ] {levels : Nat}
    (hlevels : (breakLevels inv).exec s = (.ok levels, s)) (hfew : a.loops.length < levels) :
    (startBreak inherited a inv).exec s =
      (.error (.fault { fault := .control (.mismatched inv.name (some a.loops.length)) }), s) := by
  rw [startBreak, Act.exec_bind_of_ok hlevels]
  dsimp only
  rw [if_pos hfew]
  rfl

omit [Sink ω] in
/-- A fault ends the run with the failure that it is, wherever it is placed. -/
theorem settle_fault {act : Act σ ω (Nat × List Activation)} {f : Failure}
    (h : act.exec s = (.error (.fault f), s₁)) :
    ∃ f' s', settle activations act s = (.done (.failure f'), s') ∧ f'.fault = f.fault := by
  obtain ⟨f', s', habandon, hfault, -, -⟩ := abandon_keeps none f activations s₁
  exact ⟨f', s', settle_of_fault h habandon, hfault⟩

/-- A `break` of more loops than its script is in ends the run, whatever loops the callers are in. -/
theorem PerformsInCall.breaks {lower rest : List Activation} {child : Activation} {levels : Nat}
    (h : PerformsInCall settings callee lower s₁ inv (child :: rest) s)
    (hverb : inv.verb = .leave) (hlevels : (breakLevels inv).exec s = (.ok levels, s))
    (hfew : child.loops.length < levels) :
    ∃ f s', Leads settings (.running (callee :: lower), s₁) (.done (.failure f), s') ∧
      f.fault = .control (.mismatched inv.name (some child.loops.length)) := by
  obtain ⟨⟨hcall, hfetch, homit⟩, hsplit, hcommand⟩ := h
  have hperform : (perform settings (countdown? none rest) child inv).exec s =
      (.error (.fault { fault := .control (.mismatched inv.name (some child.loops.length)) }), s) := by
    rw [perform, hverb]
    exact exec_startBreak_of_lt hlevels hfew
  have hadvance := exec_advance_of_command (countdown? none rest) hfetch homit hsplit hcommand
  rw [exec_located, hperform] at hadvance
  obtain ⟨f, s', hstep, hfault⟩ := settle_fault (Act.exec_bind_of_error hadvance)
  exact ⟨f, s', hcall.leads.trans (hstep ▸ .step _ _), hfault⟩

/-- A call leaves behind the scripts that stood there before it, as they were: their blocks, their
loops with counts, deadlines and bodies, what they skip, and what they have read.  It leaves the
standard input if all its scripts have lines of their own, and the count that is shown to the caller
if no line of the call is split into another word than its first, and none sets it.  A `break` in the
call that asks for more loops than its own script is in ends the run. -/
theorem script_call_isolated (settings : Settings) (a b callee : Activation)
    (callers : List Activation) (inv : Invocation) (s s₁ : Session σ ω)
    (hcall : (perform settings (countdown? none callers) a inv).exec s =
      (.ok (.call callee b), s₁)) :
    (∀ a₀ s₀ line input words s', a₀.fetch s₀.input = (.line line, a, input) →
      a.omission = none →
      (Expansion.split settings.shell line.text (some line.number)).exec { s₀ with input } =
        (.ok words, s') →
      (commandOf words (some line.number)).exec s' = (.ok inv, s) →
      step settings (a₀ :: callers) s₀ = (.running (callee :: a :: callers), s₁)) ∧
    (∀ next s', Returns settings callee (a :: callers) s₁ next s' →
      next = a :: callers ∧
      ((∀ {top rest s}, InCall settings callee (a :: callers) s₁ (top :: rest) s →
          top.feed.pending ≠ none) →
        s'.input = s.input) ∧
      ((∀ {line activations s}, SplitsInCall settings callee (a :: callers) s₁ line activations s →
          ShellKeeps settings.shell line s) →
        (∀ {inv activations s}, PerformsInCall settings callee (a :: callers) s₁ inv activations s →
          inv.verb = .assign → inv.args.head? ≠ some loopCountName) →
        ShowsCount s.environment (a :: callers) → ShowsCount s'.environment (a :: callers))) ∧
    (∀ inv child rest s levels,
      PerformsInCall settings callee (a :: callers) s₁ inv (child :: rest) s →
      inv.verb = .leave → (breakLevels inv).exec s = (.ok levels, s) →
      child.loops.length < levels →
      ∃ f s', Leads settings (.running (callee :: a :: callers), s₁) (.done (.failure f), s') ∧
        f.fault = .control (.mismatched inv.name (some child.loops.length))) := by
  obtain ⟨rfl, hcallee, hloops, hshared⟩ := (performed_of_ok hcall).calls rfl
  refine ⟨?_, ?_, fun inv child rest s levels h => h.breaks⟩
  · intro a₀ s₀ line input words s' hfetch homit hsplit hcommand
    have hadvance := exec_advance_of_command (countdown? none callers) hfetch homit hsplit hcommand
    rw [exec_located, hcall] at hadvance
    exact settle_of_running (Act.exec_bind_of_ok hadvance)
  · intro next s' hreturns
    obtain ⟨rfl, child, s₂, hchild, hends⟩ := hreturns.lower_eq
    have hadvanced := advanced_of_ok hends
    refine ⟨rfl, fun hown => ?_, fun hshell hset hcount => ?_⟩
    · obtain ⟨feed, hreads, -⟩ := hadvanced.fed
      rw [hreads.input_eq (hown hchild), hchild.input_eq hown]
      exact congrArg Prod.snd hshared
    · have hspares : ∀ {inv activations s},
          PerformsInCall settings callee (a :: callers) s₁ inv activations s →
          countNotice.Spares inv := by
        intro inv activations s hperforms hverb name rest hargs hname
        have hhead := hset hperforms hverb
        rw [hargs, List.mem_singleton.mp hname] at hhead
        exact hhead rfl
      have hbefore : countNotice.Says s₁.environment (countdown? none (callee :: a :: callers)) := by
        have henv : s₁.environment = s.environment := congrArg Prod.fst hshared
        rw [countdown?, Activation.countdown?, hloops, henv]
        exact (showsCount_iff _ _).mp hcount
      obtain ⟨⟨top, upper, hupper, hsound⟩, hshown⟩ :=
        hchild.told hshell hspares hcallee.toSound hbefore
      have htop : Sound child := by
        rw [(List.cons.inj hupper).1]
        exact hsound top List.mem_cons_self
      refine (showsCount_iff _ _).mpr (hadvanced.told htop hshown fun hnext => ?_)
      obtain ⟨hfetch, homit, hsplit, hbind⟩ := hnext
      exact hspares (.intro (.intro hchild hfetch homit) hsplit (exec_commandOf hbind _))

end Isolated

/-- A host with the usual programs and a script in the file `c`. -/
def hostOf (text : String) : Session Sandbox Device.Recorder where
  host :=
    { clock := { now := 0, tick := 0 }
      files := Sandbox.place Sandbox.fresh "c" (.file (Octets.ofText text) false) }
  sink := {}

/-! ### A script that is left inside of its loop -/

namespace ExitsLoop

def text : String := "loop 1\nexit\nend\n"

/-- The caller, in the first of two iterations. -/
def caller : Activation :=
  (freshScript "main" 0 { pending := some [] }).inLoop
    { remaining := some 2, deadline := none, line := some 1
      body := { lines := [⟨2, "script c"⟩], cursor := 1 } } 0

def call : Invocation := { verb := .script, args := ["c"], line := some 2 }

/-- The session of the caller, which is told about its loop. -/
def before : Session Sandbox Device.Recorder :=
  { hostOf text with environment := [(loopCountName, "2"), (loopTimeName, unbounded)] }

/-- The lines of the script that is called. -/
def lines : List RawLine := RawLine.ofBytes (Octets.ofText text).toBytes

/-- The script that is called, after it has read some lines. -/
def outside (count : Nat) : Activation :=
  { freshScript "c" 1 { pending := some (lines.drop count), past := (lines.take count).reverse } with
    calledFrom := some 2 }

/-- The script that is called, in its loop. -/
def inside (cursor : Nat) : Activation :=
  (outside 3).inLoop
    { remaining := some 1, deadline := none, line := some 1
      body := { lines := [⟨2, "exit"⟩], cursor } } 0

variable (s : Session Sandbox Device.Recorder) (input : List RawLine)

theorem fetch_head : (outside 0).fetch input = (.line ⟨1, "loop 1"⟩, outside 1, input) := rfl

theorem fetch_exit : (inside 0).fetch input = (.line ⟨2, "exit"⟩, inside 1, input) := rfl

theorem split_head :
    (Expansion.split ({} : Settings).shell "loop 1" (some 1)).exec s = (.ok ["loop", "1"], s) :=
  Expansion.exec_split rfl rfl (by cbv) (some 1) s

theorem split_exit :
    (Expansion.split ({} : Settings).shell "exit" (some 2)).exec s = (.ok ["exit"], s) :=
  Expansion.exec_split rfl rfl (by cbv) (some 2) s

/-- The session when the script is called. -/
def started : Session Sandbox Device.Recorder :=
  { before with journal := .scriptStarted "c" 1 :: before.journal }

theorem perform_call :
    (perform {} (countdown? none []) caller call).exec before =
      (.ok (.call (outside 0) caller), started) := rfl

theorem step_head :
    ∃ s', step {} [outside 0, caller] started = (.running [inside 0, caller], s') :=
  step_of_words fetch_head rfl (split_head started) (List.cons_ne_nil _ _) ⟨_, rfl⟩

theorem advance_exit :
    ∃ s', (advance {} (countdown? none [caller]) (inside 0)).exec s = (.ok .leave, s') := by
  obtain ⟨s₁, hcommand⟩ : ∃ s₁, (commandOf ["exit"] (some 2)).exec s =
      (.ok { verb := .exit, line := some 2 }, s₁) := ⟨_, rfl⟩
  obtain ⟨s', hexit⟩ := exec_exitScript (countdown? none [caller]) (inside 1) s₁
  refine ⟨s', ?_⟩
  rw [exec_advance_of_command _ (fetch_exit s.input) rfl (split_exit s) hcommand]
  exact exec_located_of_ok hexit

theorem step_exit : ∃ s', step {} [inside 0, caller] s = (.running [caller], s') := by
  obtain ⟨s', hexit⟩ := advance_exit s
  exact ⟨s', settle_of_running (Act.exec_bind_of_ok hexit)⟩

variable {s}

/-- Where the call gets to. -/
theorem inCall (h : InCall {} (outside 0) [caller] started activations s) :
    (activations = [outside 0, caller] ∧ s = started) ∨ activations = [inside 0, caller] := by
  induction h with
  | begins => exact .inl ⟨rfl, rfl⟩
  | goes _ hstep hhigh ih =>
      rcases ih with ⟨rfl, rfl⟩ | rfl
      · obtain ⟨s', hhead⟩ := step_head
        rw [hhead] at hstep
        cases hstep
        exact .inr rfl
      · obtain ⟨s', hexit⟩ := step_exit _
        rw [hexit] at hstep
        cases hstep
        exact absurd hhigh (Nat.lt_irrefl _)

/-- The lines that are executed. -/
theorem splits {line : Line} (h : SplitsInCall {} (outside 0) [caller] started line activations s) :
    line = ⟨1, "loop 1"⟩ ∨ line = ⟨2, "exit"⟩ := by
  obtain ⟨hcall, hfetch, -⟩ := h
  rcases inCall hcall with ⟨hat, -⟩ | hat
  · cases hat
    cases hfetch
    exact .inl rfl
  · cases hat
    cases hfetch
    exact .inr rfl

theorem performs {inv : Invocation}
    (h : PerformsInCall {} (outside 0) [caller] started inv activations s) :
    inv.verb = .loop ∨ inv.verb = .exit := by
  obtain ⟨hline, hsplit, hcommand⟩ := h
  rcases splits hline with rfl | rfl
  · rw [split_head] at hsplit
    cases hsplit
    cases hcommand
    exact .inl rfl
  · rw [split_exit] at hsplit
    cases hsplit
    cases hcommand
    exact .inr rfl

end ExitsLoop

/-- The script sets the count to that of its own loop and is left there; the caller has its two
iterations again. -/
theorem script_call_isolated_exitsLoop :
    ∃ s', Returns {} (ExitsLoop.outside 0) [ExitsLoop.caller] ExitsLoop.started
        [ExitsLoop.caller] s' ∧
      s'.input = ExitsLoop.before.input ∧ s'.environment.get? loopCountName = some "2" := by
  obtain ⟨-, hreturns, -⟩ := script_call_isolated {} ExitsLoop.caller ExitsLoop.caller
    (ExitsLoop.outside 0) [] ExitsLoop.call ExitsLoop.before ExitsLoop.started
    ExitsLoop.perform_call
  obtain ⟨s₂, hhead⟩ := ExitsLoop.step_head
  obtain ⟨s', hexit⟩ := ExitsLoop.advance_exit s₂
  have hcall : InCall {} (ExitsLoop.outside 0) [ExitsLoop.caller] ExitsLoop.started
      [ExitsLoop.inside 0, ExitsLoop.caller] s₂ := .goes .begins hhead (by decide)
  have hreturned : Returns {} (ExitsLoop.outside 0) [ExitsLoop.caller] ExitsLoop.started
      [ExitsLoop.caller] s' :=
    .intro hcall rfl hexit (settle_of_running (Act.exec_bind_of_ok hexit))
  have htwo : (activeLoops [ExitsLoop.caller]).head?.map (fun frame => countText frame.remaining) =
      some "2" := by decide +kernel
  obtain ⟨-, hinput, hcount⟩ := hreturns [ExitsLoop.caller] s' hreturned
  refine ⟨s', hreturned, hinput fun hin => ?_,
    (hcount (fun hline => ?_) (fun hinv hverb => ?_) htwo.symm).trans htwo⟩
  · rcases ExitsLoop.inCall hin with ⟨hat, -⟩ | hat <;> cases hat <;> nofun
  · rcases ExitsLoop.splits hline with rfl | rfl <;> exact shellKeeps_of_plain rfl
  · rcases ExitsLoop.performs hinv with hother | hother <;> rw [hverb] at hother <;> cases hother

/-! ### A shell without words -/

/-- The closing line of the branch has a star, so it is given to the shell. -/
def starredEnd : String := "loop 1\nif 1\nend *\nelse\nend\nend\n"

/-- A shell that prints nothing makes the starred line an empty one.  So the branch is still open, and
skips, where the body ends: the loop takes the branch off the stack in its own place and publishes a
count of zero, and the last line takes off the loop and publishes nothing.  The script that was called
ends without a fault, and leaves a count where there is no loop. -/
theorem count_left_by_wordless_shell :
    let launch := Launch.script "main" { pending := some [.text "script c\n"] }
    let result := launch.run { shell := "/bin/true" } 12 (hostOf starredEnd)
    (hostOf starredEnd).environment.get? loopCountName = none ∧ result.1 = .success ∧
      result.2.environment.get? loopCountName = some "0" := by
  decide +kernel

end InputScript.Machine
