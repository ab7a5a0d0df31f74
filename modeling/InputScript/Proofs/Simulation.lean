import InputScript.Proofs.Handle
import InputScript.Proofs.Parallel
import InputScript.Proofs.Stack
import InputScript.Proofs.Task

/-!
# Simulations between sinks

The engine does not look at the sink but through the handle.  So a relation between sessions on two
sinks that opening and delivering keep, each coming to the same result on both sides, is kept by
everything that is run: the machine goes through the same states on both sides, step by step, and
comes to the same result (`Agrees`).

A relation is mostly kept because each call of the sink keeps it (`Lockstep`).  An invariant of the
sessions on one sink is the case of a session and itself (`Simulation.ofInvariant`).

## Main results

* `Act.Parallel.agrees` — an action agrees with itself on another sink.
* `agrees_proceed` — so does the machine after any number of steps.
* `Task.agrees_run` — so does the run of a task.
-/

namespace InputScript

open Device (Sink Event)

variable {σ ω ω' α β γ : Type} {settings : Settings} {R : Session σ ω → Session σ ω' → Prop}

/-! ## Stages -/

/-- From related sessions both stages come to the same result and to related sessions. -/
def Agrees (R : Session σ ω → Session σ ω' → Prop) (f : Session σ ω → β × Session σ ω)
    (f' : Session σ ω' → β × Session σ ω') : Prop :=
  ∀ ⦃s s'⦄, R s s' → (f' s').1 = (f s).1 ∧ R (f s).2 (f' s').2

namespace Agrees

variable {f : Session σ ω → β × Session σ ω} {f' : Session σ ω' → β × Session σ ω'}

theorem still (b : β) : Agrees R (fun s => (b, s)) fun s => (b, s) :=
  fun _ _ h => ⟨rfl, h⟩

/-- A stage goes by the result of another. -/
theorem andThen {g : β → Session σ ω → γ × Session σ ω} {g' : β → Session σ ω' → γ × Session σ ω'}
    (h : Agrees R f f') (hnext : ∀ b, Agrees R (g b) (g' b)) :
    Agrees R (fun s => g (f s).1 (f s).2) fun s => g' (f' s).1 (f' s).2 := by
  intro s s' hR
  obtain ⟨hresult, hkept⟩ := h hR
  dsimp only
  rw [hresult]
  exact hnext _ hkept

end Agrees

/-! ## Simulations -/

/-- A relation between sessions on two sinks that is kept by what is done beside the device. -/
structure KeptBeside (R : Session σ ω → Session σ ω' → Prop) : Prop where
  bare : ∀ {s s'}, R s s' → s'.bare = s.bare
  after : ∀ {s s'}, R s s' → ∀ t, R (s.after t) (s'.after t)

variable {act' : Act σ ω' α}

theorem KeptBeside.agrees (hR : KeptBeside R)
    {act : Act σ ω α} {base : Act σ Unit α} (h : act.Aside base) (h' : act'.Aside base) :
    Agrees R act.exec act'.exec := by
  intro s s' hs
  rw [h, h', hR.bare hs]
  exact ⟨rfl, hR.after hs _⟩

variable [Host σ] [Sink ω] [Sink ω']

/-- A relation between sessions on two sinks that the ways of making actions keep. -/
structure Simulation (p : Profile) (R : Session σ ω → Session σ ω' → Prop) : Prop
    extends KeptBeside R where
  openDevice : Agrees R (Device.openDevice p).exec (Device.openDevice p).exec
  deliver : ∀ {events}, Device.Portion events →
    Agrees R (Device.deliver p events).exec (Device.deliver p events).exec

/-- A relation between sessions on two sinks that each call of the sinks keeps. -/
structure Lockstep (p : Profile) (R : Session σ ω → Session σ ω' → Prop) : Prop
    extends KeptBeside R where
  isOpen : ∀ {s s'}, R s s' → s'.isOpen = s.isOpen
  asked : ∀ {s s'}, R s s' → s.isOpen = false →
    (Device.asked p s'.sink).result = (Device.asked p s.sink).result
  refused : ∀ {s s' e}, R s s' → s.isOpen = false → (Device.asked p s.sink).result = .error e →
    R (s.refused p e) (s'.refused p e)
  created : ∀ {s s'}, R s s' → s.isOpen = false → (Device.asked p s.sink).result = .ok () →
    R (s.created p) (s'.created p)
  written : ∀ {s s'}, R s s' → s.isOpen = true → ∀ e,
    (Sink.write e s'.sink).result = (Sink.write e s.sink).result
  wrote : ∀ {s s'}, R s s' → s.isOpen = true → ∀ e, R (s.wrote e) (s'.wrote e)

namespace Act

omit [Host σ] [Sink ω] [Sink ω'] in
theorem agrees_bind {act : Act σ ω α} {next : α → Act σ ω β} {next' : α → Act σ ω' β}
    (h : Agrees R act.exec act'.exec)
    (hnext : ∀ {a s t s' t'}, act.exec s = (.ok a, t) → act'.exec s' = (.ok a, t') → R t t' →
      (((next' a).exec t').1 = ((next a).exec t).1 ∧ R ((next a).exec t).2 ((next' a).exec t').2)) :
    Agrees R (act >>= next).exec (act' >>= next').exec := by
  intro s s' hR
  obtain ⟨hresult, hkept⟩ := h hR
  rcases hexec : act.exec s with ⟨e | a, t⟩ <;> rcases hexec' : act'.exec s' with ⟨e' | a', t'⟩ <;>
    rw [hexec, hexec'] at hresult hkept <;> cases hresult
  · rw [exec_bind_of_error hexec, exec_bind_of_error hexec']
    exact ⟨rfl, hkept⟩
  · rw [exec_bind_of_ok hexec, exec_bind_of_ok hexec']
    exact hnext hexec hexec' hkept

/-- An action agrees with itself on another sink. -/
theorem Parallel.agrees {p : Profile} {act : Act σ ω α} (hR : Simulation p R)
    (h : Parallel p act act') : Agrees R act.exec act'.exec := by
  induction h with
  | aside base h h' => exact hR.toKeptBeside.agrees h h'
  | bind _ _ ih ihnext =>
      exact agrees_bind ih fun hexec _ hs => ihnext _ ⟨_, _, hexec⟩ hs
  | get _ ih =>
      intro s s' hs
      rw [exec_bind_of_ok (exec_get s), exec_bind_of_ok (exec_get s')]
      exact ih s s' (hR.bare hs) hs
  | relocate _ _ _ ih =>
      intro s s' hs
      rw [exec_relocate, exec_relocate, (ih hs).1]
      exact ⟨rfl, (ih hs).2⟩
  | openDevice => exact hR.openDevice
  | deliver h => exact hR.deliver h

end Act

namespace Lockstep

variable {p : Profile}

theorem agrees_openDevice (hR : Lockstep p R) :
    Agrees R (Device.openDevice p).exec (Device.openDevice p).exec := by
  intro s s' hs
  have hopen := hR.isOpen hs
  rcases Device.exec_openDevice_cases p s with
    ⟨hthere, hexec⟩ | ⟨hgone, e, hrefused, hexec⟩ | ⟨hgone, hmade, hexec⟩
  · rw [hexec, Device.exec_openDevice_of_open (hopen.trans hthere)]
    exact ⟨rfl, hs⟩
  · have hrefused' := (hR.asked hs hgone).trans hrefused
    rw [hexec, Device.exec_openDevice_of_refused (hopen.trans hgone) hrefused']
    exact ⟨rfl, hR.refused hs hgone hrefused⟩
  · have hmade' := (hR.asked hs hgone).trans hmade
    rw [hexec, Device.exec_openDevice_of_created (hopen.trans hgone) hmade']
    exact hR.toKeptBeside.agrees (Act.aside_wait _) (Act.aside_wait _) (hR.created hs hgone hmade)

omit [Host σ] in
/-- Events are written to a device that is there. -/
theorem agrees_emitAll (hR : Lockstep p R) (events : List Event) :
    ∀ {s s'}, R s s' → s.isOpen = true →
      ((Device.emitAll events).exec s').1 = ((Device.emitAll events).exec s).1 ∧
        R ((Device.emitAll events).exec s).2 ((Device.emitAll events).exec s').2 := by
  induction events with
  | nil => exact fun hs _ => ⟨rfl, hs⟩
  | cons e events ih =>
      intro s s' hs hopen
      have hwrote := hR.wrote hs hopen e
      have hwritten := hR.written hs hopen e
      rw [Device.emitAll, Device.emitAll, Act.exec_bind, Act.exec_bind, Device.exec_emit,
        Device.exec_emit, hwritten]
      rcases (Sink.write e s.sink).result with error | _
      · exact ⟨rfl, hwrote⟩
      · exact ih hwrote hopen

theorem agrees_deliver (hR : Lockstep p R) (events : List Event) :
    Agrees R (Device.deliver p events).exec (Device.deliver p events).exec :=
  Act.agrees_bind hR.agrees_openDevice fun hexec _ hs =>
    hR.agrees_emitAll events hs (Device.isOpen_of_openDevice hexec)

theorem simulation (hR : Lockstep p R) : Simulation p R where
  toKeptBeside := hR.toKeptBeside
  openDevice := hR.agrees_openDevice
  deliver {events} _ := hR.agrees_deliver events

end Lockstep

/-- An invariant of sessions, as a relation between a session and itself. -/
def Holds (P : Session σ ω → Prop) (s s' : Session σ ω) : Prop := s' = s ∧ P s

variable {P : Session σ ω → Prop}

omit [Host σ] [Sink ω] in
theorem agrees_holds {f : Session σ ω → β × Session σ ω} :
    Agrees (Holds P) f f ↔ ∀ s, P s → P (f s).2 := by
  constructor
  · intro h s hs
    exact (h ⟨rfl, hs⟩).2.2
  · rintro h _ s ⟨rfl, hs⟩
    exact ⟨rfl, rfl, h s hs⟩

omit [Host σ] in
/-- An invariant that each call of the sink keeps. -/
theorem Lockstep.ofInvariant {p : Profile} (after : ∀ {s}, P s → ∀ t, P (s.after t))
    (refused : ∀ {s e}, P s → s.isOpen = false → (Device.asked p s.sink).result = .error e →
      P (s.refused p e))
    (created : ∀ {s}, P s → s.isOpen = false → (Device.asked p s.sink).result = .ok () →
      P (s.created p)) (wrote : ∀ {s}, P s → s.isOpen = true → ∀ e, P (s.wrote e)) :
    Lockstep p (Holds P) where
  bare h := congrArg Session.bare h.1
  after := by
    rintro s _ ⟨rfl, hs⟩ t
    exact ⟨rfl, after hs t⟩
  isOpen h := congrArg Session.isOpen h.1
  asked h _ := by rw [h.1]
  refused := by
    rintro s _ e ⟨rfl, hs⟩ hopen hrefused
    exact ⟨rfl, refused hs hopen hrefused⟩
  created := by
    rintro s _ ⟨rfl, hs⟩ hopen hmade
    exact ⟨rfl, created hs hopen hmade⟩
  written h _ e := by rw [h.1]
  wrote := by
    rintro s _ ⟨rfl, hs⟩ hopen e
    exact ⟨rfl, wrote hs hopen e⟩

/-- An invariant that the ways of making actions keep. -/
theorem Simulation.ofInvariant {p : Profile} (after : ∀ {s}, P s → ∀ t, P (s.after t))
    (openDevice : ∀ s, P s → P ((Device.openDevice p).exec s).2)
    (deliver : ∀ {events}, Device.Portion events → ∀ s, P s →
      P ((Device.deliver p events).exec s).2) : Simulation p (Holds P) where
  bare h := congrArg Session.bare h.1
  after := by
    rintro s _ ⟨rfl, hs⟩ t
    exact ⟨rfl, after hs t⟩
  openDevice := agrees_holds.mpr openDevice
  deliver hevents := agrees_holds.mpr (deliver hevents)

/-! ## Runs -/

namespace Machine

variable (hR : Simulation settings.device R)

include hR

theorem agrees_settle (activations : List Activation)
    {act : Act σ ω (Nat × List Activation)} {act' : Act σ ω' (Nat × List Activation)}
    (h : Agrees R act.exec act'.exec) :
    Agrees R (settle activations act) (settle activations act') := by
  intro s s' hs
  obtain ⟨hresult, hkept⟩ := h hs
  rcases hexec : act.exec s with ⟨r, t⟩
  rcases hexec' : act'.exec s' with ⟨r', t'⟩
  rw [hexec, hexec'] at hresult hkept
  obtain rfl : r' = r := hresult
  rcases r' with (f | c) | ⟨_ | levels, _ | ⟨a, callers⟩⟩
  · obtain ⟨f', u, habandon⟩ := exec_abandon none f activations t
    have hagrees := (Act.Parallel.abandon none f activations).agrees hR hkept
    rcases habandon' : (abandon none f activations : Act σ ω' _).exec t' with ⟨f'', u'⟩
    rw [habandon, habandon'] at hagrees
    obtain ⟨rfl, hkept'⟩ := hagrees
    rw [settle_of_fault hexec habandon, settle_of_fault hexec' habandon']
    exact ⟨rfl, hkept'⟩
  · rw [settle_of_crash hexec, settle_of_crash hexec']
    exact ⟨rfl, hkept⟩
  · rw [settle_of_over hexec, settle_of_over hexec']
    exact ⟨rfl, hkept⟩
  · rw [settle_of_running hexec, settle_of_running hexec']
    exact ⟨rfl, hkept⟩
  · rw [settle_of_stray hexec, settle_of_stray hexec']
    exact ⟨rfl, hkept⟩
  · rw [settle_of_stray hexec, settle_of_stray hexec']
    exact ⟨rfl, hkept⟩

theorem agrees_step (activations : List Activation) :
    Agrees R (step settings activations) (step settings activations) :=
  agrees_settle hR activations ((Act.Parallel.turn settings none activations).agrees hR)

/-- The machine goes through the same states on both sinks. -/
theorem agrees_proceed (n : Nat) (status : Status) :
    Agrees R (fun s => proceed settings n (status, s)) fun s => proceed settings n (status, s) := by
  induction n generalizing status with
  | zero =>
      simp only [proceed_zero]
      exact .still status
  | succ n ih =>
      cases status with
      | done o =>
          simp only [proceed_done]
          exact .still _
      | running activations => exact (agrees_step hR activations).andThen ih

theorem agrees_start (launch : Launch) :
    Agrees R (launch.start settings) (launch.start settings) := by
  cases launch with
  | script source feed =>
      intro s s' hs
      exact ⟨rfl, (hR.toKeptBeside.agrees (Act.aside_note (.scriptStarted source 0))
        (Act.aside_note _) hs).2⟩
  | command words =>
      cases words with
      | nil => exact .still _
      | cons word rest =>
          refine agrees_settle hR [freshCommand] (Act.Parallel.agrees hR ?_)
          refine (Act.Parallel.located ?_ _ _).andThen fun m => .follow none [] m
          exact .dispatch settings none freshCommand (word :: rest) none

theorem agrees_run (fuel : Nat) (launch : Launch) :
    Agrees R (launch.run settings fuel) (launch.run settings fuel) := by
  have hsteps := (agrees_start hR launch).andThen (agrees_proceed hR fuel)
  have hanswer : ∀ status, Agrees R (fun s => Conf.answer (status, s))
      fun s => Conf.answer (status, s) := by
    intro status
    cases status <;> exact .still _
  rw [funext (Launch.run_eq fuel launch), funext (Launch.run_eq fuel launch)]
  exact hsteps.andThen hanswer

end Machine

namespace Task

open Machine (Launch Outcome)

variable (hR : Simulation settings.device R)

include hR

theorem agrees_opened (fuel : Nat) (source : String) (r : Except (Trouble Failure) Machine.Feed) :
    Agrees R (opened settings fuel source r) (opened settings fuel source r) := by
  rcases r with (f | c) | feed
  · exact .still _
  · exact .still _
  · exact Machine.agrees_run hR fuel (.script source feed)

theorem agrees_outcome (task : Task) (fuel : Nat) :
    Agrees R (task.outcome settings fuel) (task.outcome settings fuel) := by
  cases task with
  | command words => exact Machine.agrees_run hR fuel (.command words)
  | lines text name => exact Machine.agrees_run hR fuel (.script _ _)
  | path file name =>
      exact ((Act.Parallel.openFeed file).agrees hR).andThen
        (agrees_opened hR fuel (Runner.sourceName name file))

/-- What a task comes to is the same on both sinks. -/
theorem agrees_task (task : Task) (fuel : Nat)
    (r : Runner σ ω) (r' : Runner σ ω') (hsettings : r.settings = settings)
    (hsettings' : r'.settings = settings) (hsession : R r.session r'.session) :
    (task.run fuel r').1 = (task.run fuel r).1 ∧
      R (task.run fuel r).2.session (task.run fuel r').2.session := by
  rw [run_eq, run_eq, hsettings, hsettings']
  have hconclude : ∀ o, Agrees R (fun s => ((r.conclude (o, s)).1, (r.conclude (o, s)).2.session))
      fun s => ((r'.conclude (o, s)).1, (r'.conclude (o, s)).2.session) := by
    intro o
    cases o with
    | success => exact .still RunResult.success
    | crash c => exact .still (RunResult.crashed c)
    | failure f =>
        intro s s' hs
        exact ⟨rfl, (hR.toKeptBeside.agrees (Act.aside_note (.runFailed f.report))
          (Act.aside_note _) hs).2⟩
  exact (agrees_outcome hR task fuel).andThen hconclude hsession

omit hR in
/-- What is kept beside and by the device holds after a task. -/
theorem invariant_run (task : Task) (fuel : Nat) (r : Runner σ ω)
    (hP : Simulation r.settings.device (Holds P)) (h : P r.session) :
    P (task.run fuel r).2.session :=
  (agrees_task hP task fuel r r rfl rfl ⟨rfl, h⟩).2.2

end Task

end InputScript
