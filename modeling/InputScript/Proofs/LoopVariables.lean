import InputScript.Proofs.Notice

/-!
# The loop variables

Two variables tell the lines of a script about the innermost loop: how many of its iterations are left,
and how much of its time.

`Shows` is what the two are to say.  It is a notice, so it is kept by all that a script does with its
next line, and by whole runs, provided that no `set` names the variables.

## Main results

* `held_of_leads` — the variables say what they are to say wherever a run gets to.
* `loop_variables` — what every line that is split or executed sees, and what a run leaves behind.
-/

namespace InputScript.Machine

open Device (Sink)
open Script (Line RawLine)

/-! ## What the variables say -/

/-- The variables are those of the innermost loop: its iterations left, and whether it has a
deadline.  Without a loop there are none. -/
def Shows (env : Environment) : Option Countdown → Prop
  | none => env.get? loopCountName = none ∧ env.get? loopTimeName = none
  | some c =>
    env.get? loopCountName = some (countText c.remaining) ∧
      ∃ time, env.get? loopTimeName = some time ∧ (time = unbounded ↔ c.deadline = none)

/-- Only the two variables count. -/
theorem Shows.congr {env env' : Environment} {c : Option Countdown} (h : Shows env c)
    (hcount : env'.get? loopCountName = env.get? loopCountName)
    (htime : env'.get? loopTimeName = env.get? loopTimeName) : Shows env' c := by
  unfold Shows at h ⊢
  rw [hcount, htime]
  exact h

theorem loopCountName_ne : loopCountName ≠ loopTimeName := by decide

theorem shows_erase (env : Environment) :
    Shows ((env.erase loopCountName).erase loopTimeName) none := by
  refine ⟨?_, ?_⟩
  · rw [Environment.get?_erase, if_neg loopCountName_ne, Environment.get?_erase, if_pos rfl]
  · rw [Environment.get?_erase, if_pos rfl]

theorem shows_set (env : Environment) (c : Countdown) {time : String}
    (htime : time = unbounded ↔ c.deadline = none) :
    Shows ((env.set loopCountName (countText c.remaining)).set loopTimeName time) (some c) := by
  refine ⟨?_, time, ?_, htime⟩
  · rw [Environment.get?_set, if_neg loopCountName_ne, Environment.get?_set, if_pos rfl]
  · rw [Environment.get?_set, if_pos rfl]

/-- A command does not set the loop variables. -/
def Spares (inv : Invocation) : Prop :=
  inv.verb = .assign → ∀ name rest, inv.args = name :: rest →
    name ≠ loopCountName ∧ name ≠ loopTimeName

/-- What both variables are to say. -/
def loopNotice : Notice where
  names := [loopCountName, loopTimeName]
  Says := Shows
  congr h hsame := h.congr (hsame _ (by decide)) (hsame _ (by decide))
  erased := shows_erase
  written := shows_set

theorem Spares.loopNotice {inv : Invocation} (h : Spares inv) : loopNotice.Spares inv := by
  intro hverb name rest hargs hmem
  obtain ⟨hcount, htime⟩ := h hverb name rest hargs
  rcases List.mem_cons.mp hmem with heq | hmem
  · exact hcount heq
  · exact htime (List.mem_singleton.mp hmem)

/-! ## Runs -/

variable {σ ω : Type} [Host σ] [Sink ω] {settings : Settings}

section Runs

variable {launch : Launch} {s₀ : Session σ ω}

theorem held_start (habsent : Shows s₀.environment none)
    (hset : ∀ {words activations s number inv}, Dispatches settings launch s₀ words activations s →
      Invocation.bind words number = .ok inv → Spares inv) :
    loopNotice.Held (launch.start settings s₀) := by
  cases launch with
  | script source feed => exact habsent
  | command words =>
      rw [Launch.start]
      by_cases hempty : words.isEmpty = true
      · rw [if_pos hempty]
        exact habsent
      · rw [if_neg hempty]
        refine Notice.held_of_settle freshCommand fun m s₁ hexec => ?_
        rw [exec_located_eq_ok, dispatch] at hexec
        obtain ⟨inv, s₂, hcommand, hperform⟩ := Act.exec_bind_eq_ok.mp hexec
        obtain ⟨hbind, rfl⟩ := commandOf_ok hcommand
        have hperformed := performed_of_ok hperform
        have hwords : words ≠ [] := fun hnil => hempty (List.isEmpty_iff.mpr hnil)
        exact ⟨(hperformed.sound (.of_no_loop .nil rfl rfl inv)).2,
          hperformed.told habsent (hset (.command rfl hwords) hbind).loopNotice⟩

/-- The variables say what they are to say wherever a run gets to. -/
theorem held_of_leads (habsent : Shows s₀.environment none)
    (hshell : ∀ {line activations s},
      Executes settings (launch.start settings s₀) line activations s →
      ShellKeeps settings.shell line s)
    (hset : ∀ {words activations s number inv}, Dispatches settings launch s₀ words activations s →
      Invocation.bind words number = .ok inv → Spares inv)
    {c : Conf σ ω} (h : Leads settings (launch.start settings s₀) c) : loopNotice.Held c := by
  refine Leads.induction (held_start habsent hset) (fun {activations s} hleads hshows => ?_) h
  cases activations with
  | nil => exact hshows
  | cons a callers =>
      have ha : Steady settings a := standing_of_leads hshell hleads a List.mem_cons_self
      refine Notice.held_of_settle a fun m s₁ hexec => ?_
      have hadvanced := advanced_of_ok hexec
      have hstays := (hadvanced.steady ha fun line a₁ input hfetch homit =>
        hshell (.intro hleads hfetch homit)).2
      refine ⟨hstays, hadvanced.told ha.toSound hshows ?_⟩
      rintro a₁ inv s₂ ⟨hfetch, homit, hsplit, hbind⟩
      have hwords := ne_nil_of_bind hbind
      exact (hset (.line (.intro hleads hfetch homit) hsplit hwords) hbind).loopNotice

/-- The loops that are active, innermost first: those of a script, then those of the script that
called it. -/
def activeLoops (activations : List Activation) : List LoopFrame :=
  activations.flatMap Activation.loops

omit [Host σ] [Sink ω] in
theorem countdown?_activeLoops (activations : List Activation) :
    countdown? none activations = (activeLoops activations).head?.map LoopFrame.toCountdown := by
  induction activations with
  | nil => rfl
  | cons a callers ih =>
      have hloops : activeLoops (a :: callers) = loopsOf a.frames ++ activeLoops callers :=
        List.flatMap_cons
      rw [countdown?, ih, a.countdown?_eq, hloops, List.head?_append, List.head?_map]
      cases (loopsOf a.frames).head? <;> rfl

/-- Whenever a line is split or executed the loop variables are those of the innermost active loop;
and once a run has ended, but for a crash, they are gone. -/
theorem loop_variables (settings : Settings) (launch : Launch) (s₀ : Session σ ω)
    (hcount : s₀.environment.get? loopCountName = none)
    (htime : s₀.environment.get? loopTimeName = none)
    (hshell : ∀ {line activations s},
      Executes settings (launch.start settings s₀) line activations s →
      ShellKeeps settings.shell line s)
    (hset : ∀ {words activations s number inv}, Dispatches settings launch s₀ words activations s →
      Invocation.bind words number = .ok inv → Spares inv) :
    (∀ line activations s, Executes settings (launch.start settings s₀) line activations s →
      Shows s.environment ((activeLoops activations).head?.map LoopFrame.toCountdown)) ∧
    (∀ words activations s, Dispatches settings launch s₀ words activations s →
      Shows s.environment ((activeLoops activations).head?.map LoopFrame.toCountdown)) ∧
    (∀ fuel outcome s', launch.run settings fuel s₀ = (outcome, s') →
      (∀ c, outcome ≠ .crash c) → Shows s'.environment none) := by
  have habsent : Shows s₀.environment none := ⟨hcount, htime⟩
  have hexecutes : ∀ line activations s,
      Executes settings (launch.start settings s₀) line activations s →
      Shows s.environment ((activeLoops activations).head?.map LoopFrame.toCountdown) := by
    rintro _ _ _ ⟨hleads, hfetch, homit⟩
    have ha := standing_of_leads hshell hleads _ List.mem_cons_self
    obtain ⟨cursor, htook⟩ := took_of_fetch ha.aligned hfetch
    rw [← countdown?_activeLoops, countdown?, htook.countdown?]
    exact held_of_leads habsent hshell hset hleads
  refine ⟨hexecutes, ?_, ?_⟩
  · rintro words activations s hdispatches
    cases hdispatches with
    | line hline hsplit _ => exact loopNotice.of_split hsplit (hexecutes _ _ _ hline)
    | command _ _ => exact habsent
  · intro fuel outcome s' hrun hends
    rw [Launch.run_eq] at hrun
    have hheld := held_of_leads habsent hshell hset (leads_of_answer hrun (hends _))
    cases outcome with
    | success => exact hheld
    | failure f => exact hheld
    | crash c => exact absurd rfl (hends c)

end Runs

/-- The first line in the loop is told that one iteration is left and that there is no deadline;
after the run there are no loop variables. -/
theorem loop_variables_guardedLoop :
    (∃ s, Executes {} (guardedLaunch.start {} idle) ⟨2, "if 0"⟩ [GuardedLoop.inside 1] s ∧
      Shows s.environment (some ⟨some 1, none⟩)) ∧
    ∃ s', guardedLaunch.run {} 6 idle = (.success, s') ∧ Shows s'.environment none := by
  obtain ⟨hlines, -, hend⟩ := loop_variables {} guardedLaunch idle rfl rfl GuardedLoop.shellKeeps
    (fun hwords hbind => by
      rcases GuardedLoop.dispatches hwords with rfl | rfl
      · cases hbind
        exact fun hverb => nomatch hverb
      · cases hbind
        exact fun hverb => nomatch hverb)
  obtain ⟨s₁, -, -, s', hleads, -, -, hrun⟩ := GuardedLoop.run
  have hline : Executes {} (guardedLaunch.start {} idle) ⟨2, "if 0"⟩ [GuardedLoop.inside 1] s₁ :=
    .intro hleads (GuardedLoop.fetch_cond s₁.input) rfl
  exact ⟨⟨s₁, hline, hlines _ _ _ hline⟩, s', hrun, hend 6 .success s' hrun fun _ => nofun⟩

end InputScript.Machine
