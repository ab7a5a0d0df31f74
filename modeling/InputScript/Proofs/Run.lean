import InputScript.Machine.Step
import InputScript.Proofs.Action
import InputScript.Sandbox

/-!
# Runs of the machine

`proceed` takes a configuration of the machine a number of steps further and leaves an ended run as
it is, so that `proceed_add` holds without side conditions.  A configuration `Leads` to another if
some number of steps takes the one to the other; it is `Busy` for `n` steps if it has not ended
within them.

`run` is a view of `proceed` (`continueFrom_eq`): what a run answers within a number of steps is
the end that was reached, or a crash if the steps were too few.  A top-level run of a script or of
a command is given by its `Launch`.

## Main results

* `Leads.induction` — what every step keeps holds wherever a run gets to.
* `Leads.done_unique` — a run has at most one end.
* `answer_of_leads` — an end that is reached is what a run answers, from some bound on the steps
  on.
-/

namespace InputScript.Machine

open Device (Sink)
open Script (Line RawLine)

variable {σ ω : Type} [Host σ] [Sink ω] {settings : Settings}

/-- Where the machine stands, with the session. -/
abbrev Conf (σ ω : Type) := Status × Session σ ω

/-- The configuration a number of steps further on. -/
def proceed (settings : Settings) : Nat → Conf σ ω → Conf σ ω
  | 0, c => c
  | n + 1, (.running activations, s) => proceed settings n (step settings activations s)
  | _ + 1, (.done outcome, s) => (.done outcome, s)

@[simp] theorem proceed_zero (c : Conf σ ω) : proceed settings 0 c = c := by
  rcases c with ⟨_ | _, _⟩ <;> rfl

@[simp] theorem proceed_done (n : Nat) (o : Outcome) (s : Session σ ω) :
    proceed settings n (.done o, s) = (.done o, s) := by
  cases n <;> rfl

@[simp] theorem proceed_succ_running (n : Nat) (activations : List Activation)
    (s : Session σ ω) :
    proceed settings (n + 1) (.running activations, s) =
      proceed settings n (step settings activations s) := rfl

theorem proceed_add (m n : Nat) (c : Conf σ ω) :
    proceed settings (m + n) c = proceed settings n (proceed settings m c) := by
  induction m generalizing c with
  | zero => simp
  | succ m ih =>
      rcases c with ⟨activations | o, s⟩
      · rw [Nat.add_right_comm, proceed_succ_running, proceed_succ_running, ih]
      · simp

/-! ## Reachability -/

/-- Some number of steps takes one configuration to the other. -/
def Leads (settings : Settings) (c c' : Conf σ ω) : Prop :=
  ∃ n, proceed settings n c = c'

/-- The run has not ended within `n` steps. -/
def Busy (settings : Settings) (n : Nat) (c : Conf σ ω) : Prop :=
  ∃ activations s, proceed settings n c = (.running activations, s)

variable {c : Conf σ ω} {o : Outcome} {activations : List Activation} {s s' : Session σ ω}

namespace Leads

theorem refl (c : Conf σ ω) : Leads settings c c := ⟨0, by simp⟩

theorem trans {c₁ c₂ c₃ : Conf σ ω} (h₁ : Leads settings c₁ c₂) (h₂ : Leads settings c₂ c₃) :
    Leads settings c₁ c₃ := by
  obtain ⟨m, rfl⟩ := h₁
  obtain ⟨n, rfl⟩ := h₂
  exact ⟨m + n, proceed_add m n c₁⟩

theorem step (activations : List Activation) (s : Session σ ω) :
    Leads settings (.running activations, s) (Machine.step settings activations s) :=
  ⟨1, by simp⟩

/-- A step, and what it leads to. -/
theorem head {s : Session σ ω} (h : Leads settings (Machine.step settings activations s) c) :
    Leads settings (.running activations, s) c :=
  (step activations s).trans h

/-- A run stays where it is, or goes on behind its first step. -/
theorem cases_head {s : Session σ ω} (h : Leads settings (.running activations, s) c) :
    c = (.running activations, s) ∨ Leads settings (Machine.step settings activations s) c := by
  obtain ⟨n, rfl⟩ := h
  cases n with
  | zero => exact .inl (proceed_zero _)
  | succ n => exact .inr ⟨n, rfl⟩

/-- A run has at most one end. -/
theorem done_unique {o' : Outcome} (h : Leads settings c (.done o, s))
    (h' : Leads settings c (.done o', s')) :
    o = o' ∧ s = s' := by
  obtain ⟨m, hm⟩ := h
  obtain ⟨n, hn⟩ := h'
  have hmn : proceed settings (m + n) c = (.done o, s) := by rw [proceed_add, hm, proceed_done]
  have hnm : proceed settings (m + n) c = (.done o', s') := by
    rw [Nat.add_comm, proceed_add, hn, proceed_done]
  rw [hmn] at hnm
  cases hnm
  exact ⟨rfl, rfl⟩

/-- What every step of a run keeps holds wherever the run gets to, at its end as well. -/
theorem induction {P : Conf σ ω → Prop} {start : Conf σ ω} (hstart : P start)
    (hstep : ∀ {activations s}, Leads settings start (.running activations, s) →
      P (.running activations, s) → P (Machine.step settings activations s))
    (h : Leads settings start c) : P c := by
  obtain ⟨n, rfl⟩ := h
  induction n with
  | zero =>
      rw [proceed_zero]
      exact hstart
  | succ n ih =>
      rw [proceed_add]
      rcases hn : proceed settings n start with ⟨activations | o, s⟩
      · rw [hn] at ih
        rw [proceed_succ_running, proceed_zero]
        exact hstep ⟨n, hn⟩ ih
      · rw [hn] at ih
        rw [proceed_done]
        exact ih

/-- An end is reached by a last step. -/
theorem last_step (h : Leads settings (.running activations, s) (.done o, s')) :
    ∃ before s₁, Leads settings (.running activations, s) (.running before, s₁) ∧
      Machine.step settings before s₁ = (.done o, s') := by
  obtain ⟨n, hn⟩ := h
  induction n generalizing activations s with
  | zero =>
      rw [proceed_zero] at hn
      cases hn
  | succ n ih =>
      rw [proceed_succ_running] at hn
      rcases heq : Machine.step settings activations s with ⟨next | o', s₁⟩
      · rw [heq] at hn
        obtain ⟨before, s₂, hbefore, hlast⟩ := ih hn
        refine ⟨before, s₂, head ?_, hlast⟩
        rw [heq]
        exact hbefore
      · rw [heq, proceed_done] at hn
        cases hn
        exact ⟨activations, s, refl _, heq⟩

end Leads

namespace Busy

theorem mono {m n : Nat} (h : Busy settings n c) (hle : m ≤ n) :
    Busy settings m c := by
  obtain ⟨activations, s, hn⟩ := h
  obtain ⟨k, rfl⟩ := Nat.exists_eq_add_of_le hle
  rw [proceed_add] at hn
  rcases hm : proceed settings m c with ⟨before | o, s₁⟩
  · exact ⟨before, s₁, hm⟩
  · rw [hm, proceed_done] at hn
    cases hn

/-- A run that gets to a busy configuration is busy. -/
theorem of_leads {n : Nat} {c' : Conf σ ω} (h : Leads settings c c') (hbusy : Busy settings n c') :
    Busy settings n c := by
  obtain ⟨m, rfl⟩ := h
  obtain ⟨activations, s, hn⟩ := hbusy
  rw [← proceed_add] at hn
  exact mono ⟨activations, s, hn⟩ (Nat.le_add_left n m)

/-- One step more. -/
theorem succ {n : Nat} {s : Session σ ω}
    (h : Busy settings n (Machine.step settings activations s)) :
    Busy settings (n + 1) (.running activations, s) := h

end Busy

/-! ## Bounded runs -/

/-- What is answered where the number of steps is used up. -/
def Conf.answer : Conf σ ω → Outcome × Session σ ω
  | (.done outcome, s) => (outcome, s)
  | (.running _, s) => (.crash .endless, s)

omit [Host σ] [Sink ω] in
theorem Conf.answer_session (c : Conf σ ω) : c.answer.2 = c.2 := by
  rcases c with ⟨activations | o, s⟩ <;> rfl

theorem run_eq (fuel : Nat) (activations : List Activation) (s : Session σ ω) :
    run settings fuel activations s =
      Conf.answer (proceed settings fuel (.running activations, s)) := by
  induction fuel generalizing activations s with
  | zero => rfl
  | succ fuel ih =>
      rw [run, proceed_succ_running]
      rcases step settings activations s with ⟨next | o, s'⟩
      · exact ih next s'
      · simp [Conf.answer]

theorem continueFrom_eq (fuel : Nat) (c : Conf σ ω) :
    continueFrom settings fuel c = Conf.answer (proceed settings fuel c) := by
  rcases c with ⟨activations | o, s⟩
  · exact run_eq fuel activations s
  · simp [continueFrom, Conf.answer]

/-! ## Top-level runs -/

/-- What a top-level run begins with. -/
inductive Launch
  | script (source : String) (feed : Feed)
  | command (words : List String)

/-- The activation of a script that was not begun. -/
def freshScript (source : String) (depth : Nat) (feed : Feed) : Activation :=
  { role := .script, source, depth, feed }

/-- The activation of a single command. -/
def freshCommand : Activation :=
  { role := .command, source := "command", feed := { pending := some [] } }

/-- The first configuration of a top-level run.  A command is dispatched at once. -/
def Launch.start (settings : Settings) : Launch → Session σ ω → Conf σ ω
  | .script source feed, s =>
    (.running [freshScript source 0 feed],
      { s with journal := .scriptStarted source 0 :: s.journal })
  | .command words, s =>
    if words.isEmpty then (.done .success, s)
    else
      settle [freshCommand]
        (located "command" none (dispatch settings none freshCommand words none) >>=
          follow none []) s

/-- A top-level run within a number of steps. -/
def Launch.run (settings : Settings) (fuel : Nat) : Launch → Session σ ω → Outcome × Session σ ω
  | .script source feed, s => runScript settings fuel source feed s
  | .command words, s => runCommand settings fuel words s

theorem runScript_eq (fuel : Nat) (source : String) (feed : Feed) (s : Session σ ω) :
    runScript settings fuel source feed s =
      Conf.answer (proceed settings fuel ((Launch.script source feed).start settings s)) :=
  continueFrom_eq fuel ((Launch.script source feed).start settings s)

theorem runCommand_eq (fuel : Nat) (words : List String) (s : Session σ ω) :
    runCommand settings fuel words s =
      Conf.answer (proceed settings fuel ((Launch.command words).start settings s)) := by
  rw [← continueFrom_eq]
  cases words with
  | nil => rfl
  | cons word rest => rfl

theorem Launch.run_eq (fuel : Nat) (launch : Launch) (s : Session σ ω) :
    launch.run settings fuel s =
      Conf.answer (proceed settings fuel (launch.start settings s)) := by
  cases launch with
  | script source feed => exact runScript_eq fuel source feed s
  | command words => exact runCommand_eq fuel words s

/-- An end that is reached is what a run answers, from some bound on the steps on. -/
theorem answer_of_leads {s : Session σ ω} (h : Leads settings c (.done o, s)) :
    ∃ bound, ∀ fuel, bound ≤ fuel → Conf.answer (proceed settings fuel c) = (o, s) := by
  obtain ⟨n, hn⟩ := h
  refine ⟨n, fun fuel hle => ?_⟩
  obtain ⟨k, rfl⟩ := Nat.exists_eq_add_of_le hle
  rw [proceed_add, hn, proceed_done]
  rfl

/-- An answer other than for want of steps is an end that was reached. -/
theorem leads_of_answer {fuel : Nat} {s : Session σ ω}
    (h : Conf.answer (proceed settings fuel c) = (o, s)) (ho : o ≠ .crash .endless) :
    Leads settings c (.done o, s) := by
  rcases hp : proceed settings fuel c with ⟨activations | o', s'⟩
  · rw [hp] at h
    cases h
    exact absurd rfl ho
  · rw [hp] at h
    cases h
    exact ⟨fuel, hp⟩

/-! ## Lines and words that are executed -/

/-- A line is about to be split: in a run that begins so, the innermost of the running scripts has
read it and does not skip it. -/
inductive Executes (settings : Settings) (start : Conf σ ω) :
    Line → List Activation → Session σ ω → Prop
  | intro {a a₁ : Activation} {callers : List Activation} {s : Session σ ω} {line : Line}
      {input : List RawLine} (hleads : Leads settings start (.running (a :: callers), s))
      (hfetch : a.fetch s.input = (.line line, a₁, input)) (homit : a₁.omission = none) :
      Executes settings start line (a₁ :: callers) { s with input }

/-- A line that a run executes is the first that it reads, or it is executed behind the first step. -/
theorem Executes.cases_head {a : Activation} {callers activations : List Activation} {line : Line}
    (h : Executes settings (.running (a :: callers), s) line activations s') :
    (∃ a₁ input, a.fetch s.input = (.line line, a₁, input) ∧ a₁.omission = none) ∨
      Executes settings (step settings (a :: callers) s) line activations s' := by
  obtain ⟨hleads, hfetch, homit⟩ := h
  rcases hleads.cases_head with hhere | hleads
  · cases hhere
    exact .inl ⟨_, _, hfetch, homit⟩
  · exact .inr (.intro hleads hfetch homit)

/-- A run that has ended executes no line. -/
theorem not_executes_done {line : Line} :
    ¬ Executes settings (.done o, s) line activations s' := by
  rintro ⟨⟨n, hn⟩, -, -⟩
  rw [proceed_done] at hn
  cases hn

/-- Words are about to be executed: those of a line that was split, or those that a run is launched
with. -/
inductive Dispatches (settings : Settings) (launch : Launch) (s₀ : Session σ ω) :
    List String → List Activation → Session σ ω → Prop
  | line {line : Line} {words : List String} {activations : List Activation}
      {s s' : Session σ ω} (hline : Executes settings (launch.start settings s₀) line activations s)
      (hsplit : (Expansion.split settings.shell line.text (some line.number)).exec s =
        (.ok words, s')) (hwords : words ≠ []) :
      Dispatches settings launch s₀ words activations s'
  | command {words : List String} (hlaunch : launch = .command words) (hwords : words ≠ []) :
      Dispatches settings launch s₀ words [freshCommand] s₀

/-- A host on which nothing happens by itself, with a device that is not made yet. -/
def idle : Session Sandbox Device.Recorder where
  host := { clock := { now := 0, tick := 0 }, files := { root := .emptyDirectory } }
  sink := {}

end InputScript.Machine
