import InputScript.Proofs.Nesting
import InputScript.Proofs.Position
import InputScript.Proofs.RunRules

/-!
# The control state

A script has its blocks on one stack, the loops that it replays on another, and a third thing beside
them that says whether lines are skipped.  They are changed in many places: blocks are entered and
left by lines that are executed and by lines that are skipped, loops end and are broken, a script is
left with all its blocks.  This module says what holds of the three at every line.

The stack is bounded since a block is entered only below the limit; this needs nothing else
(`Advanced.low`).  That the branch which is skipped is on top of the stack (`Advanced.skipsOnTop`),
and that the loops on the stack are those that are replayed, rests on the soundness of the stacks.

## Main results

* `standing_of_leads` — wherever a run gets to, all its scripts are `Steady`.
* `control_state` — the control state at every line that is read, executed, skipped or collected;
  and a `break` and an `exit` end in their own script.
-/

namespace InputScript.Machine

open Device (Sink)
open Script (Line RawLine)

variable {σ ω : Type} {a a' a₁ : Activation} {line : Line} {cursor : Nat} {m : Move}
  {settings : Settings} {inherited : Option Countdown} {inv : Invocation} {s s' : Session σ ω}

/-! ## The height of the stack -/

namespace Activation

theorem height_fetch {input input' : List RawLine} {next : Script.Next}
    (h : a.fetch input = (next, a', input')) : a'.height = a.height := by
  unfold fetch at h
  split at h
  · split at h
    · cases h
      rfl
    · split at h
      · cases h
        exact List.length_set
      · cases h
        rfl
  · cases h
    rfl

theorem height_skipPast {input input' : List RawLine} {rest : List Line}
    (h : a.skipPast input line rest = (a', input')) :
    a'.height = a.height ∧ a'.omission = a.omission := by
  unfold skipPast at h
  split at h
  · split at h
    · cases h
      exact ⟨rfl, rfl⟩
    · cases h
      exact ⟨List.length_set, rfl⟩
  · cases h
    exact ⟨rfl, rfl⟩

theorem height_markElse (a : Activation) : a.markElse.height = a.height := by
  unfold markElse height
  split
  · next hframes => rw [hframes]; rfl
  · rfl

theorem height_replaying (a : Activation) (frame : LoopFrame) (lines : List Line) :
    (a.replaying frame lines).height = a.height :=
  List.length_set

end Activation

section Low

variable [Host σ]

omit [Host σ] in
theorem Omitted.height_le {o : Omission} (h : Omitted a o line s m s') :
    m.All fun b => b.height ≤ a.height := by
  cases h with
  | opener _ _ => exact Nat.le_refl _
  | inner _ _ _ => exact Nat.le_refl _
  | neutral _ _ => exact Nat.le_refl _
  | close _ _ _ =>
      have hpop : a.pop.height ≤ a.height := by simp [Activation.height, Activation.pop]
      exact hpop
  | otherwise _ _ _ =>
      have hmarked : (if a.height = o.height then a.markElse else a).height ≤ a.height := by
        split
        · exact Nat.le_of_eq a.height_markElse
        · exact Nat.le_refl _
      exact hmarked

theorem Iterated.height_le {replay : Replay} {outer : List Replay}
    (h : Iterated inherited a replay outer s m s') : m.All fun b => b.height ≤ a.height := by
  cases h with
  | gone _ => exact Nat.le_refl _
  | finished _ _ _ ha' _ =>
      subst ha'
      simp [Move.All, Activation.height, Activation.pop, Activation.setLoopAt]
  | continued _ _ _ ha' _ =>
      subst ha'
      simp [Move.All, Activation.height, Activation.setLoopAt]

variable [Sink ω]

theorem Performed.low (h : Performed settings inherited a inv s m s')
    (hlow : a.height ≤ settings.maxControlDepth) :
    m.All fun b => b.height ≤ settings.maxControlDepth := by
  cases h with
  | simple _ _ => exact hlow
  | call _ _ hcall =>
      obtain ⟨feed, s₁, -, rfl⟩ := callScript_ok hcall
      exact ⟨Nat.zero_le _, hlow⟩
  | @loop _ _ frame body a₁ _ _ _ _ _ hdepth hbody _ =>
      have hheight : a₁.height = a.height + 1 := (Activation.height_skipPast hbody.skipped).1
      have hreplaying := a₁.height_replaying frame body.lines
      show (a₁.replaying frame body.lines).height ≤ settings.maxControlDepth
      omega
  | leave _ _ _ hleave =>
      split
      · exact Nat.le_trans (leaveLoops_suffix hleave).1.length_le hlow
      · trivial
  | @cond truth _ _ _ hdepth => cases truth <;> exact hdepth
  | otherwise _ _ _ => exact Nat.le_trans (Nat.le_of_eq a.height_markElse) hlow
  | close _ _ =>
      have hpop : a.pop.height ≤ a.height := by simp [Activation.height, Activation.pop]
      exact Nat.le_trans hpop hlow
  | exit _ _ => trivial

/-- A block is entered only below the limit. -/
theorem Advanced.low (h : Advanced settings inherited a s m s')
    (hlow : a.height ≤ settings.maxControlDepth) :
    m.All fun b => b.height ≤ settings.maxControlDepth := by
  cases h with
  | omitted hfetch _ hline =>
      rw [← Activation.height_fetch hfetch] at hlow
      exact hline.height_le.imp fun b hb => Nat.le_trans hb hlow
  | blank hfetch _ _ =>
      rw [← Activation.height_fetch hfetch] at hlow
      exact hlow
  | performed hfetch _ _ _ hline =>
      rw [← Activation.height_fetch hfetch] at hlow
      exact hline.low hlow
  | iterated hfetch _ hend =>
      rw [← Activation.height_fetch hfetch] at hlow
      exact hend.height_le.imp fun b hb => Nat.le_trans hb hlow
  | finished _ _ _ _ => trivial

end Low

/-! ## The branch that is skipped -/

/-- If lines are skipped, the branch that they belong to is on top of the stack.  What was noted when
it began to be skipped is still so: the height of the stack, and whether its `else` was seen. -/
def Activation.SkipsOnTop (a : Activation) : Prop :=
  ∀ o, a.omission = some o →
    ∃ c frames, a.frames = .cond c :: frames ∧ o.height = a.height ∧ o.elseSeen = c.elseSeen

theorem Activation.SkipsOnTop.of_none (h : a.omission = none) : a.SkipsOnTop := by
  intro o homit
  rw [h] at homit
  cases homit

theorem Took.skipsOnTop (ht : Took a line cursor a₁) (h : a.SkipsOnTop) : a₁.SkipsOnTop := by
  intro o homit
  obtain ⟨c, frames, hframes, hheight, hseen⟩ := h o (ht.omission.symm.trans homit)
  refine ⟨c, moveCursor cursor frames, ?_, ?_, hseen⟩
  · rw [ht.frames, hframes]
    rfl
  · rw [hheight, Activation.height, Activation.height, ht.frames, length_moveCursor]

theorem Omitted.skipsOnTop {o : Omission} (hline : Omitted a o line s m s')
    (h : a.SkipsOnTop) (homit : a.omission = some o) : m.All Activation.SkipsOnTop := by
  obtain ⟨c, frames, hframes, hheight, hseen⟩ := h o homit
  cases hline with
  | opener _ _ =>
      rintro _ ⟨⟩
      exact ⟨c, frames, hframes, hheight, hseen⟩
  | inner _ _ _ =>
      rintro _ ⟨⟩
      exact ⟨c, frames, hframes, hheight, hseen⟩
  | neutral _ _ => exact h
  | close _ _ _ => exact .of_none rfl
  | otherwise _ _ _ => exact .of_none rfl

section SkipsOnTop

variable [Host σ]

theorem Iterated.skipsOnTop {replay : Replay} {outer : List Replay}
    (h : Iterated inherited a replay outer s m s') (homit : a.omission = none) :
    m.All Activation.SkipsOnTop := by
  cases h with
  | gone _ => exact .of_none homit
  | finished _ _ _ ha' _ =>
      subst ha'
      exact .of_none homit
  | continued _ _ _ ha' _ =>
      subst ha'
      exact .of_none homit

variable [Sink ω]

theorem Performed.skipsOnTop (h : Performed settings inherited a inv s m s')
    (homit : a.omission = none) : m.All Activation.SkipsOnTop := by
  cases h with
  | simple _ _ => exact .of_none homit
  | call _ _ hcall =>
      obtain ⟨feed, s₁, -, rfl⟩ := callScript_ok hcall
      exact ⟨.of_none rfl, .of_none homit⟩
  | loop _ _ _ _ hbody _ =>
      have hnone := (Activation.height_skipPast hbody.skipped).2.trans homit
      exact .of_none hnone
  | leave _ _ _ hleave =>
      split
      · rcases (leaveLoops_suffix hleave).2.2 with hnone | rfl
        · exact .of_none hnone
        · exact .of_none homit
      · trivial
  | @cond truth _ _ _ _ =>
      cases truth with
      | true => exact .of_none homit
      | false =>
          rintro _ ⟨⟩
          exact ⟨_, a.frames, rfl, rfl, rfl⟩
  | otherwise _ hframes _ =>
      rintro _ ⟨⟩
      exact ⟨_, _, Activation.frames_markElse hframes, rfl, rfl⟩
  | close _ _ => exact .of_none homit
  | exit _ _ => trivial

/-- Whatever a script does with its next line, a branch that is skipped is on top of the stack. -/
theorem Advanced.skipsOnTop (h : Advanced settings inherited a s m s') (hsound : Sound a)
    (hskips : a.SkipsOnTop) : m.All Activation.SkipsOnTop := by
  cases h with
  | omitted hfetch homit hline =>
      obtain ⟨cursor, htook⟩ := took_of_fetch hsound.aligned hfetch
      exact hline.skipsOnTop (htook.skipsOnTop hskips) homit
  | blank hfetch homit _ => exact .of_none homit
  | performed hfetch homit _ _ hline => exact hline.skipsOnTop homit
  | iterated hfetch hreplays hend =>
      obtain ⟨⟨hframes, hsame, homit⟩, hrest⟩ := ended_of_fetch hsound.aligned hfetch
      rw [← hframes] at hrest
      exact hend.skipsOnTop ((hsound.congr hframes hsame homit).at_end hrest hreplays).1
  | finished _ _ _ _ => trivial

end SkipsOnTop

/-! ## The loops on the stack -/

namespace Aligned

variable {frames : List Frame} {replays : List Replay}

/-- A frame on top of the stack moves no other. -/
theorem map_frameAt (h : Aligned frames replays) (frame : Frame) :
    (replays.map fun r => (frame :: frames)[(frame :: frames).length - r.base]?.bind Frame.loop?) =
      replays.map fun r => frames[frames.length - r.base]?.bind Frame.loop? := by
  refine List.map_congr_left fun r hr => ?_
  have hle := h.base_le r hr
  have hindex : (frame :: frames).length - r.base = frames.length - r.base + 1 := by
    rw [List.length_cons]
    omega
  rw [hindex, List.getElem?_cons_succ]

/-- The loops on the stack are, in order, those that the replays stand for. -/
theorem map_loopsOf (h : Aligned frames replays) :
    (loopsOf frames).map some =
      replays.map fun r => frames[frames.length - r.base]?.bind Frame.loop? := by
  induction h with
  | nil => rfl
  | cond h ih => rw [h.map_frameAt, loopsOf_cond, ih]
  | @loop f frames replays iterations h ih =>
      rw [List.map_cons, h.map_frameAt, loopsOf_loop, List.map_cons, ih, List.length_cons,
        Nat.sub_self]
      rfl

end Aligned

/-- The control state of a script where it deals with a line.  The loops whose bodies are being
collected are given; the others on the stack are replayed. -/
structure Controlled (settings : Settings) (collecting : List LoopFrame) (a : Activation) :
    Prop where
  height_le : a.height ≤ settings.maxControlDepth
  skipsOnTop : a.SkipsOnTop
  loops_eq : a.loops.map some = collecting.map some ++ a.replays.map fun r => a.loopAt? r.base

/-! ## Crashes -/

section Contained

variable [Host σ] [Sink ω]

/-- Rules that allow all crashes of commands and all events admit all words. -/
theorem Rules.admitsWords_of_commands {rules : Rules σ ω settings}
    (hcrash : ∀ c, ¬ OfRun c → rules.crash c) (hevent : ∀ e, rules.event e) (words : List String)
    (env : Environment) : rules.AdmitsWords words env where
  option := by
    rintro _ _ _ - - - c ⟨word, -, -, rfl, -⟩
    exact hcrash _ (by rintro (h | h) <;> cases h)
  command line inv _ :=
    { numeral := by
        rintro _ - c ⟨rfl, -⟩
        exact hcrash _ (by rintro (h | h) <;> cases h)
      process := fun _ cause _ => hcrash _ fun hrun => crashOf_ne hrun cause rfl
      path := fun _ _ _ _ => hcrash _ (by rintro (h | h) <;> cases h)
      value := fun _ _ _ _ _ => hcrash _ (by rintro (h | h) <;> cases h)
      key := fun _ _ _ _ _ => hevent _ }

/-- Everything is allowed but a crash for a `break` that no loop takes. -/
def breakRules (σ ω : Type) [Host σ] [Sink ω] (settings : Settings) : Rules σ ω settings :=
  .ofCrashes (· ≠ .strayBreak) (fun _ _ _ => nofun) fun count time delay _ _ _ hcrash hstray =>
    Device.tapCount_ne (.inl hstray) count (some time) delay hcrash

/-- Loops are no concern of a command: whatever it crashes for, it is not a `break`. -/
theorem breakRules_admits (words : List String) (env : Environment) :
    (breakRules σ ω settings).AdmitsWords words env := by
  refine Rules.admitsWords_of_commands (fun c hcommand hstray => ?_) (fun _ => trivial) words env
  exact hcommand (.inl hstray)

theorem breakRules_reads (a : Activation) : (breakRules σ ω settings).Reads a :=
  fun _ _ _ _ _ => nofun

end Contained

/-! ## Scripts in runs -/

/-- The control state of a script between two lines. -/
structure Steady (settings : Settings) (a : Activation) : Prop extends Sound a where
  low : a.height ≤ settings.maxControlDepth
  skipsOnTop : a.SkipsOnTop

/-- A script at its first line is in no block. -/
theorem Steady.fresh (hframes : a.frames = []) (hreplays : a.replays = [])
    (homit : a.omission = none) : Steady settings a := by
  have haligned : Aligned a.frames a.replays := by
    rw [hframes, hreplays]
    exact .nil
  have hbalanced : Balanced 0 a.frames := by
    rw [hframes]
    trivial
  have hheight : a.height = 0 := by rw [Activation.height, hframes]; rfl
  exact ⟨.of_executing haligned hbalanced homit, by omega, .of_none homit⟩

theorem Steady.controlled (h : Steady settings a) :
    Controlled settings [] a :=
  ⟨h.low, h.skipsOnTop, h.aligned.map_loopsOf⟩

/-- A line that was read has not changed the control state. -/
theorem Steady.controlled_fetch {input input' : List RawLine}
    (h : Steady settings a) (hfetch : a.fetch input = (.line line, a₁, input')) :
    Aligned a₁.frames a₁.replays ∧ Controlled settings [] a₁ := by
  obtain ⟨cursor, htook⟩ := took_of_fetch h.aligned hfetch
  have haligned := htook.aligned h.toSound
  refine ⟨haligned, ?_, htook.skipsOnTop h.skipsOnTop, haligned.map_loopsOf⟩
  rw [Activation.height_fetch hfetch]
  exact h.low

section Runs

variable [Host σ]

/-- A loop whose body is about to be collected is on top of the stack. -/
theorem controlled_of_loopHead {frame : LoopFrame}
    (haligned : Aligned a.frames a.replays) (homit : a.omission = none)
    (hhead : (loopHead settings a inv).exec s = (.ok frame, s')) :
    Controlled settings [frame] (a.push (.loop frame)) := by
  unfold loopHead at hhead
  obtain ⟨⟨count, time⟩, s₁, -, h₁⟩ := Act.exec_bind_eq_ok.mp hhead
  obtain ⟨now, s₂, -, h₂⟩ := Act.exec_bind_eq_ok.mp h₁
  obtain ⟨⟨⟩, s₃, hdepth, -⟩ := Act.exec_bind_eq_ok.mp h₂
  refine ⟨(checkDepth_ok hdepth).1, .of_none homit, ?_⟩
  exact congrArg (some frame :: ·) (haligned.map_loopsOf.trans (haligned.map_frameAt _).symm)

/-- Where a run stands its scripts have a property; and it has not ended for a `break` that no loop
takes. -/
def Standing (P : Activation → Prop) : Conf σ ω → Prop
  | (.running activations, _) => ∀ a ∈ activations, P a
  | (.done outcome, _) => outcome ≠ .crash .strayBreak

variable [Sink ω] {launch : Launch} {s₀ : Session σ ω}

/-- What is asked of a step, so that it keeps a property of all scripts: it does not crash for a
`break`, its move has the property, and it leaves no loops of the callers. -/
theorem standing_of_settle {P : Activation → Prop} {act : Act σ ω Move} (a : Activation)
    {callers : List Activation} (hcallers : ∀ a ∈ callers, P a)
    (hkeeps : act.Keeps (breakRules σ ω settings) s)
    (hact : ∀ m s₁, act.exec s = (.ok m, s₁) → m.All P ∧ ∀ levels, m ≠ .unwind levels) :
    Standing P (settle (a :: callers) (act >>= follow none callers) s) := by
  have hfollow : ∀ {m s₁ levels left s₂}, act.exec s = (.ok m, s₁) →
      (follow none callers m).exec s₁ = (.ok (levels, left), s₂) →
      levels = 0 ∧ ∀ b ∈ left, P b := by
    intro m s₁ levels left s₂ hmove hfollow
    obtain ⟨hall, hstays⟩ := hact m s₁ hmove
    cases m with
    | next b =>
        cases hfollow
        exact ⟨rfl, List.forall_mem_cons.mpr ⟨hall, hcallers⟩⟩
    | call callee b =>
        cases hfollow
        exact ⟨rfl, List.forall_mem_cons.mpr ⟨hall.1, List.forall_mem_cons.mpr ⟨hall.2, hcallers⟩⟩⟩
    | leave =>
        cases hfollow
        exact ⟨rfl, hcallers⟩
    | unwind levels => exact absurd rfl (hstays levels)
  generalize hend : settle (a :: callers) (act >>= follow none callers) s = c
  obtain ⟨status, s'⟩ := c
  have hexec := exec_of_settle hend
  cases status with
  | running left =>
      obtain ⟨m, s₁, hmove, hrest⟩ := Act.exec_bind_eq_ok.mp hexec
      exact (hfollow hmove hrest).2
  | done outcome =>
      cases outcome with
      | success => exact nofun
      | failure f => exact nofun
      | crash c =>
          rintro ⟨⟩
          rcases hexec with hcrash | ⟨levels, left, hstray⟩
          · rcases Act.exec_bind_eq_error.mp hcrash with hmove | ⟨m, s₁, hmove, hrest⟩
            · exact (hkeeps.of_eq hmove).2 _ rfl rfl
            · obtain ⟨r, s₂, hok⟩ := exec_follow none callers m s₁
              rw [hok] at hrest
              cases hrest
          · obtain ⟨m, s₁, hmove, hrest⟩ := Act.exec_bind_eq_ok.mp hstray
            exact absurd (hfollow hmove hrest).1 (Nat.succ_ne_zero levels)

theorem Advanced.steady (hadvanced : Advanced settings inherited a s m s') (h : Steady settings a)
    (hshell : ∀ line a₁ input, a.fetch s.input = (.line line, a₁, input) → a₁.omission = none →
      ShellKeeps settings.shell line { s with input }) :
    m.All (Steady settings) ∧ ∀ levels, m ≠ .unwind levels := by
  obtain ⟨hsound, hstays⟩ := hadvanced.sound h.toSound hshell
  have hlow := hadvanced.low h.low
  have hskips := hadvanced.skipsOnTop h.toSound h.skipsOnTop
  exact ⟨((hsound.and hlow).and hskips).imp fun b hb => ⟨hb.1.1, hb.1.2, hb.2⟩, hstays⟩

theorem Performed.steady (hline : Performed settings inherited a inv s m s')
    (hready : Ready a inv) (hlow : a.height ≤ settings.maxControlDepth) :
    m.All (Steady settings) ∧ ∀ levels, m ≠ .unwind levels := by
  obtain ⟨hsound, hstays⟩ := hline.sound hready
  have hskips := hline.skipsOnTop hready.executes
  exact ⟨((hsound.and (hline.low hlow)).and hskips).imp fun b hb => ⟨hb.1.1, hb.1.2, hb.2⟩, hstays⟩

theorem standing_start (settings : Settings) (launch : Launch) (s₀ : Session σ ω) :
    Standing (Steady settings) (launch.start settings s₀) := by
  cases launch with
  | script source feed =>
      exact List.forall_mem_singleton.mpr (.fresh rfl rfl rfl)
  | command words =>
      rw [Launch.start]
      by_cases hempty : words.isEmpty = true
      · rw [if_pos hempty]
        intro hcrash
        cases hcrash
      · rw [if_neg hempty]
        have hne : words ≠ [] := fun hnil => hempty (List.isEmpty_iff.mpr hnil)
        have hkeeps : (dispatch settings none freshCommand words none).Keeps
            (breakRules σ ω settings) s₀ :=
          .dispatch hne (breakRules_admits _ _) (breakRules_reads _) none
        refine standing_of_settle freshCommand (List.forall_mem_nil _) (hkeeps.located _ _)
          fun m s₁ hexec => ?_
        rw [exec_located_eq_ok, dispatch] at hexec
        obtain ⟨inv, s₂, -, hperform⟩ := Act.exec_bind_eq_ok.mp hexec
        exact (performed_of_ok hperform).steady (.of_no_loop .nil rfl rfl inv) (Nat.zero_le _)

/-- Wherever a run gets to, all its scripts are steady. -/
theorem standing_of_leads
    (hshell : ∀ {line activations s},
      Executes settings (launch.start settings s₀) line activations s →
      ShellKeeps settings.shell line s)
    {c : Conf σ ω} (h : Leads settings (launch.start settings s₀) c) :
    Standing (Steady settings) c := by
  refine Leads.induction (standing_start settings launch s₀) (fun {activations s} hleads hall => ?_) h
  cases activations with
  | nil => exact nofun
  | cons a callers =>
      obtain ⟨ha, hcallers⟩ := List.forall_mem_cons.mp hall
      have hkeeps : (advance settings (countdown? none callers) a).Keeps
          (breakRules σ ω settings) s :=
        .advance (breakRules_reads a) fun _ _ _ words s₁ _ _ _ _ => breakRules_admits _ _
      refine standing_of_settle a hcallers hkeeps fun m s₁ hexec => ?_
      exact (advanced_of_ok hexec).steady ha fun line a₁ input hfetch homit =>
        hshell (.intro hleads hfetch homit)

/-! ## Every line -/

/-- A command is about to be performed: its words were recognised in a script of the run. -/
inductive Performs (settings : Settings) (launch : Launch) (s₀ : Session σ ω) :
    Invocation → List Activation → Session σ ω → Prop
  | intro {words : List String} {activations : List Activation} {number : Option Nat}
      {inv : Invocation} {s s' : Session σ ω}
      (hwords : Dispatches settings launch s₀ words activations s)
      (hcommand : (commandOf words number).exec s = (.ok inv, s')) :
      Performs settings launch s₀ inv activations s'

/-- A line that is executed performs its command. -/
theorem performs_of_line {callers : List Activation} {s₁ : Session σ ω}
    (hleads : Leads settings (launch.start settings s₀) (.running (a :: callers), s))
    (h : NextCommand settings a s a₁ inv s₁) :
    Performs settings launch s₀ inv (a₁ :: callers)
      { s₁ with journal := .commandDispatched inv :: s₁.journal } := by
  obtain ⟨hfetch, homit, hsplit, hbind⟩ := h
  exact .intro (.line (.intro hleads hfetch homit) hsplit (ne_nil_of_bind hbind))
    (exec_commandOf hbind s₁)

/-- The command of a launch is performed. -/
theorem performs_of_command {words : List String}
    (hlaunch : launch = .command words) (hbind : Invocation.bind words none = .ok inv) :
    Performs settings launch s₀ inv [freshCommand]
      { s₀ with journal := .commandDispatched inv :: s₀.journal } :=
  .intro (.command hlaunch (ne_nil_of_bind hbind)) (exec_commandOf hbind s₀)

/-- A script of the run is at a point where it deals with a line; the loops whose bodies are being
collected there go with it. -/
inductive Handles (settings : Settings) (launch : Launch) (s₀ : Session σ ω) :
    List LoopFrame → Activation → Prop
  /-- Between two lines, or waiting for a script that it called. -/
  | stands {activations : List Activation} {a : Activation} {s : Session σ ω}
      (hleads : Leads settings (launch.start settings s₀) (.running activations, s))
      (ha : a ∈ activations) : Handles settings launch s₀ [] a
  /-- A line was read, to be executed or skipped. -/
  | reads {a a₁ : Activation} {callers : List Activation} {s : Session σ ω} {line : Line}
      {input : List RawLine}
      (hleads : Leads settings (launch.start settings s₀) (.running (a :: callers), s))
      (hfetch : a.fetch s.input = (.line line, a₁, input)) : Handles settings launch s₀ [] a₁
  /-- The command of a line, or that of the launch, is performed. -/
  | performs {a : Activation} {callers : List Activation} {inv : Invocation} {s : Session σ ω}
      (hperforms : Performs settings launch s₀ inv (a :: callers) s) : Handles settings launch s₀ [] a
  /-- A loop was entered, and lines are collected. -/
  | collects {a : Activation} {callers : List Activation} {inv : Invocation} {frame : LoopFrame}
      {s s' : Session σ ω} (hperforms : Performs settings launch s₀ inv (a :: callers) s)
      (hverb : inv.verb = .loop) (hhead : (loopHead settings a inv).exec s = (.ok frame, s')) :
      Handles settings launch s₀ [frame] (a.push (.loop frame))

/-- A script that performs a command skips nothing, and its control state is that of the line. -/
theorem controlled_of_performs
    (hshell : ∀ {line activations s},
      Executes settings (launch.start settings s₀) line activations s →
      ShellKeeps settings.shell line s) {callers : List Activation}
    (h : Performs settings launch s₀ inv (a :: callers) s) :
    a.omission = none ∧ Aligned a.frames a.replays ∧ Controlled settings [] a := by
  obtain ⟨hwords, -⟩ := h
  cases hwords with
  | command _ _ => exact ⟨rfl, .nil, (Steady.fresh rfl rfl rfl).controlled⟩
  | line hline _ _ =>
      obtain ⟨hleads, hfetch, homit⟩ := hline
      have hsteady := standing_of_leads hshell hleads _ List.mem_cons_self
      exact ⟨homit, hsteady.controlled_fetch hfetch⟩

omit [Host σ] [Sink ω] in
/-- A skipped line leaves no block, or the branch on top of the stack. -/
theorem Omitted.pops {o : Omission} {b : Activation} (h : Omitted a o line s (.next b) s')
    (hskips : a.SkipsOnTop) (homit : a.omission = some o) :
    b.height = a.height ∨ ∃ c, a.frames = .cond c :: b.frames := by
  cases h with
  | opener _ _ => exact .inl rfl
  | inner _ _ _ => exact .inl rfl
  | neutral _ _ => exact .inl rfl
  | close _ _ _ =>
      obtain ⟨c, frames, hframes, -, -⟩ := hskips o homit
      refine .inr ⟨c, ?_⟩
      have hpop : a.pop.frames = frames := by rw [Activation.pop, hframes]; rfl
      rw [hframes, ← hpop]
  | otherwise _ _ _ =>
      refine .inl ?_
      have hmarked : (if a.height = o.height then a.markElse else a).height = a.height := by
        split
        · exact a.height_markElse
        · rfl
      exact hmarked

/-- A `break` that is performed leaves loops of its own script, and the script goes on. -/
theorem Performed.breaks (h : Performed settings inherited a inv s m s')
    (hverb : inv.verb = .leave) (haligned : Aligned a.frames a.replays) :
    ∃ b levels, m = .next b ∧ 0 < levels ∧ b.loops = a.loops.drop levels := by
  cases h with
  | @leave levels left b _ _ hlevels havailable hleave =>
      rw [a.loops_eq, haligned.length_eq] at havailable
      obtain ⟨rfl, hloops⟩ := loops_leaveLoops haligned havailable hleave
      exact ⟨b, levels, if_pos rfl, breakLevels_pos hlevels, hloops⟩
  | simple hplain _ =>
      rw [hverb] at hplain
      cases hplain
  | call hother _ _ | loop hother _ _ _ _ _ | cond hother _ _ | otherwise hother _ _
  | close hother _ | exit hother _ =>
      rw [hverb] at hother
      cases hother

/-- At every line the stack is within its limit, a branch that is skipped is on top of the stack, and
the loops on the stack are those that are collected or replayed.  So a skipped line pops nothing but
the branch that is skipped; a `break` and an `exit` end in the script that performs them; and no run
ends for a `break` that no loop takes. -/
theorem control_state (settings : Settings) (launch : Launch) (s₀ : Session σ ω)
    (hshell : ∀ {line activations s},
      Executes settings (launch.start settings s₀) line activations s →
      ShellKeeps settings.shell line s) :
    (∀ collecting a, Handles settings launch s₀ collecting a → Controlled settings collecting a) ∧
    (∀ a callers s line a₁ input o b s',
      Leads settings (launch.start settings s₀) (.running (a :: callers), s) →
      a.fetch s.input = (.line line, a₁, input) → a₁.omission = some o →
      (omitLine a₁ o line).exec { s with input } = (.ok (.next b), s') →
      b.height = a₁.height ∨ ∃ c, a₁.frames = .cond c :: b.frames) ∧
    (∀ inv a callers s m s', Performs settings launch s₀ inv (a :: callers) s →
      inv.verb = .leave →
      (perform settings (countdown? none callers) a inv).exec s = (.ok m, s') →
      ∃ b levels, m = .next b ∧ 0 < levels ∧ b.loops = a.loops.drop levels) ∧
    (∀ inv a callers s, Performs settings launch s₀ inv (a :: callers) s → inv.verb = .exit →
      ∃ s', (perform settings (countdown? none callers) a inv).exec s = (.ok .leave, s')) ∧
    ∀ fuel, (launch.run settings fuel s₀).1 ≠ .crash .strayBreak := by
  refine ⟨fun collecting a hhandles => ?_, fun a callers s line a₁ input o b s' hleads hfetch homit
    hexec => ?_, fun inv a callers s m s' hperforms hverb hexec => ?_, fun inv a callers s _ hverb => ?_,
    fun fuel hstray => ?_⟩
  · cases hhandles with
    | stands hleads ha => exact (standing_of_leads hshell hleads a ha).controlled
    | reads hleads hfetch =>
        have hsteady := standing_of_leads hshell hleads _ List.mem_cons_self
        exact (hsteady.controlled_fetch hfetch).2
    | performs hperforms => exact (controlled_of_performs hshell hperforms).2.2
    | collects hperforms _ hhead =>
        obtain ⟨homit, haligned, -⟩ := controlled_of_performs hshell hperforms
        exact controlled_of_loopHead haligned homit hhead
  · have hsteady := standing_of_leads hshell hleads _ List.mem_cons_self
    exact (omitted_of_ok hexec).pops (hsteady.controlled_fetch hfetch).2.skipsOnTop homit
  · obtain ⟨-, haligned, -⟩ := controlled_of_performs hshell hperforms
    exact (performed_of_ok hexec).breaks hverb haligned
  · unfold perform
    rw [hverb]
    exact exec_exitScript _ a s
  · obtain ⟨outcome, s', hrun⟩ : ∃ outcome s', launch.run settings fuel s₀ = (outcome, s') :=
      ⟨_, _, rfl⟩
    rw [hrun] at hstray
    cases hstray
    rw [Launch.run_eq] at hrun
    exact standing_of_leads hshell (leads_of_answer hrun nofun) rfl

end Runs

/-! ### A loop with a branch that is skipped -/

/-- A loop that is run once.  Its branch is not taken, so that nothing is broken. -/
def guardedLoop : List RawLine :=
  [.text "loop 1\n", .text "  if 0\n", .text "    break\n", .text "  end\n", .text "end\n"]

/-- The run of `guardedLoop`. -/
abbrev guardedLaunch : Launch := .script "main" { pending := some guardedLoop }

variable {activations : List Activation}

namespace GuardedLoop

/-- The script after it has read some lines, outside of its loop. -/
def outside (lines : Nat) : Activation :=
  { freshScript "main" 0 { pending := some guardedLoop } with
    feed := { pending := some (guardedLoop.drop lines), past := (guardedLoop.take lines).reverse } }

/-- The script in its loop. -/
def inside (cursor : Nat) : Activation :=
  (outside 5).inLoop
    { remaining := some 1, deadline := none, line := some 1
      body := { lines := [⟨2, "if 0"⟩, ⟨3, "break"⟩, ⟨4, "end"⟩], cursor } } 0

/-- The script in its loop while it skips the branch. -/
def skipping (cursor : Nat) : Activation :=
  ((inside cursor).push (.cond { line := some 2 })).startOmission false

variable (s : Session Sandbox Device.Recorder) (input : List RawLine)

theorem fetch_head : (outside 0).fetch input = (.line ⟨1, "loop 1"⟩, outside 1, input) := rfl

theorem fetch_cond : (inside 0).fetch input = (.line ⟨2, "if 0"⟩, inside 1, input) := rfl

theorem fetch_break : (skipping 1).fetch input = (.line ⟨3, "break"⟩, skipping 2, input) := rfl

theorem fetch_close : (skipping 2).fetch input = (.line ⟨4, "end"⟩, skipping 3, input) := rfl

theorem fetch_bodyEnd : (inside 3).fetch input = (.finished, inside 3, input) := rfl

theorem fetch_end : (outside 5).fetch input = (.finished, outside 5, input) := rfl

theorem split_head :
    (Expansion.split ({} : Settings).shell "loop 1" (some 1)).exec s = (.ok ["loop", "1"], s) :=
  Expansion.exec_split rfl rfl (by cbv) (some 1) s

theorem split_cond :
    (Expansion.split ({} : Settings).shell "if 0" (some 2)).exec s = (.ok ["if", "0"], s) :=
  Expansion.exec_split rfl rfl (by cbv) (some 2) s

theorem step_head :
    ∃ s', step {} [outside 0] (guardedLaunch.start {} idle).2 = (.running [inside 0], s') :=
  step_of_words fetch_head rfl (split_head _) (List.cons_ne_nil _ _) ⟨_, rfl⟩

theorem step_cond : ∃ s', step {} [inside 0] s = (.running [skipping 1], s') :=
  step_of_words fetch_cond rfl (split_cond s) (List.cons_ne_nil _ _) ⟨_, rfl⟩

theorem step_break : ∃ s', step {} [skipping 1] s = (.running [skipping 2], s') :=
  step_of_omission fetch_break rfl ⟨_, rfl⟩

theorem step_close : ∃ s', step {} [skipping 2] s = (.running [inside 3], s') :=
  step_of_omission fetch_close rfl ⟨_, rfl⟩

theorem step_bodyEnd : ∃ s', step {} [inside 3] s = (.running [outside 5], s') := by
  have hend : ∃ s', (endIteration none (inside 3) ⟨1, 0⟩ []).exec s =
      (.ok (.next (outside 5)), s') := ⟨_, rfl⟩
  obtain ⟨s', hend⟩ := hend
  exact ⟨s', (step_of_body_end fetch_bodyEnd rfl s).trans (settle_bind_of_ok hend)⟩

theorem step_end : ∃ s', step {} [outside 5] s = (.done .success, s') := by
  obtain ⟨s', hfinish⟩ := exec_finish (a := outside 5) rfl s
  exact ⟨s', (step_of_script_end fetch_end rfl s).trans (settle_bind_of_ok hfinish)⟩

variable {s}

/-- The lines that are executed. -/
theorem executes {line : Line} (h : Executes {} (guardedLaunch.start {} idle) line activations s) :
    line = ⟨1, "loop 1"⟩ ∨ line = ⟨2, "if 0"⟩ := by
  obtain ⟨s₁, h₁⟩ := step_head
  obtain ⟨s₂, h₂⟩ := step_cond s₁
  obtain ⟨s₃, h₃⟩ := step_break s₂
  obtain ⟨s₄, h₄⟩ := step_close s₃
  obtain ⟨s₅, h₅⟩ := step_bodyEnd s₄
  obtain ⟨s₆, h₆⟩ := step_end s₅
  rcases h.cases_head with ⟨_, _, hfetch, -⟩ | h
  · cases hfetch
    exact .inl rfl
  replace h : Executes {} (.running [inside 0], s₁) line activations s := by
    rw [← h₁]
    exact h
  rcases h.cases_head with ⟨_, _, hfetch, -⟩ | h
  · cases hfetch
    exact .inr rfl
  rw [h₂] at h
  rcases h.cases_head with ⟨_, _, hfetch, homit⟩ | h
  · cases hfetch
    cases homit
  rw [h₃] at h
  rcases h.cases_head with ⟨_, _, hfetch, homit⟩ | h
  · cases hfetch
    cases homit
  rw [h₄] at h
  rcases h.cases_head with ⟨_, _, hfetch, -⟩ | h
  · cases hfetch
  rw [h₅] at h
  rcases h.cases_head with ⟨_, _, hfetch, -⟩ | h
  · cases hfetch
  rw [h₆] at h
  exact absurd h not_executes_done

/-- No line goes to the shell. -/
theorem shellKeeps {line : Line} (h : Executes {} (guardedLaunch.start {} idle) line activations s) :
    ShellKeeps ({} : Settings).shell line s := by
  rintro code word words s' hcommand hneeds -
  rcases executes h with rfl | rfl
  · cases hcommand
    cases hneeds
  · cases hcommand
    cases hneeds

/-- The words that are executed. -/
theorem dispatches {words : List String} (h : Dispatches {} guardedLaunch idle words activations s) :
    words = ["loop", "1"] ∨ words = ["if", "0"] := by
  cases h with
  | command hlaunch _ => cases hlaunch
  | line hline hsplit _ =>
      rcases executes hline with rfl | rfl
      · rw [split_head] at hsplit
        cases hsplit
        exact .inl rfl
      · rw [split_cond] at hsplit
        cases hsplit
        exact .inr rfl

/-- The run gets into the loop, skips the branch, and ends. -/
theorem run :
    ∃ s₁ s₂ s₃ s₄, Leads {} (guardedLaunch.start {} idle) (.running [inside 0], s₁) ∧
      Leads {} (.running [inside 0], s₁) (.running [skipping 1], s₂) ∧
      Leads {} (.running [skipping 1], s₂) (.running [inside 3], s₃) ∧
      guardedLaunch.run {} 6 idle = (.success, s₄) := by
  obtain ⟨s₁, h₁⟩ := step_head
  obtain ⟨s₂, h₂⟩ := step_cond s₁
  obtain ⟨t, h₃⟩ := step_break s₂
  obtain ⟨s₃, h₄⟩ := step_close t
  obtain ⟨u, h₅⟩ := step_bodyEnd s₃
  obtain ⟨s₄, h₆⟩ := step_end u
  have hskips : proceed {} 2 (.running [skipping 1], s₂) = (.running [inside 3], s₃) :=
    (congrArg (proceed {} 1) h₃).trans h₄
  have hproceed : proceed {} 6 (guardedLaunch.start {} idle) = (.done .success, s₄) := calc
    proceed {} 6 (guardedLaunch.start {} idle)
      = proceed {} 5 (.running [inside 0], s₁) := congrArg (proceed {} 5) h₁
    _ = proceed {} 4 (.running [skipping 1], s₂) := congrArg (proceed {} 4) h₂
    _ = proceed {} 2 (.running [inside 3], s₃) := congrArg (proceed {} 2) hskips
    _ = proceed {} 1 (.running [outside 5], u) := congrArg (proceed {} 1) h₅
    _ = (.done .success, s₄) := h₆
  refine ⟨s₁, s₂, s₃, s₄, ⟨1, h₁⟩, ⟨1, h₂⟩, ⟨2, hskips⟩, ?_⟩
  rw [Launch.run_eq, hproceed]
  rfl

end GuardedLoop

/-- While the branch is skipped it is on top of the stack, and the loop below it is the one that is
replayed. -/
theorem control_state_guardedLoop :
    Handles {} guardedLaunch idle [] (GuardedLoop.skipping 1) ∧
      (GuardedLoop.skipping 1).omission.isSome = true ∧
      Controlled {} [] (GuardedLoop.skipping 1) := by
  obtain ⟨s₁, s₂, -, -, h₁, h₂, -, -⟩ := GuardedLoop.run
  have hhandles : Handles {} guardedLaunch idle [] (GuardedLoop.skipping 1) :=
    .stands (h₁.trans h₂) List.mem_cons_self
  exact ⟨hhandles, rfl, (control_state {} guardedLaunch idle GuardedLoop.shellKeeps).1 _ _ hhandles⟩

end InputScript.Machine
