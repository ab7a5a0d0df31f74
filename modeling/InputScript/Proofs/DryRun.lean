import InputScript.Proofs.Declared
import InputScript.Proofs.Rationing
import InputScript.Proofs.Simulation

/-!
# Dry runs

A dry run is a run on a recorder.  It is worth something only if the run on a real device does the
same.  This module compares the two sinks: the recorder, and a kernel sink that never fails.  A
recorder and a kernel sink *mirror* each other if neither will fail and the handles stand at the same
point; then whatever is run next goes the same way on both, and the device is called once for every
event that the recorder keeps.

What the two sinks tell the journal, and the name that they give to the device, are their own; no
script sees either.

## Main results

* `lockstep_mirrors` — each call of the two sinks keeps the sessions alike.
* `dry_run_fidelity` — the run of a task on the one is a run on the other.
-/

namespace InputScript

open Device (Sink Event Recorder Kernel Call Construction Capabilities Identity VirtualDevice)

/-! ## Calls on the kernel sink -/

namespace Device.Kernel

/-- The devices that were made, in order. -/
def devices (k : Kernel) : List VirtualDevice := k.retired.reverse ++ k.device.toList

/-- The calls that were made on the devices, in order. -/
def calls (k : Kernel) : List Call := k.devices.flatMap fun d => d.calls.reverse

/-- What the devices were made from, in order. -/
def constructions (k : Kernel) : List Construction := k.devices.map (·.construction)

variable {k : Kernel} {d : VirtualDevice}

/-- A kernel that does not misbehave makes the device that it is asked for. -/
theorem asked_eq (h : k.misbehaviour = .none) (p : Profile) :
    (asked p k).result = .ok () ∧
      (asked p k).sink = { k with
        device := some { construction := k.construction (.ofProfile p) (.ofProfile p), node := k.node }
        retired := k.device.toList ++ k.retired } := by
  simp [asked, Sink.create, create, h]

theorem devices_asked (h : k.misbehaviour = .none) (p : Profile) :
    (asked p k).sink.devices = k.devices ++
      [{ construction := k.construction (.ofProfile p) (.ofProfile p), node := k.node }] := by
  rw [(asked_eq h p).2, devices, devices]
  cases k.device <;> simp

theorem calls_asked (h : k.misbehaviour = .none) (p : Profile) :
    (asked p k).sink.calls = k.calls := by
  rw [calls, calls, devices_asked h, List.flatMap_append]
  simp

theorem constructions_asked (h : k.misbehaviour = .none) (p : Profile) :
    (asked p k).sink.constructions =
      k.constructions ++ [k.construction (.ofProfile p) (.ofProfile p)] := by
  rw [constructions, constructions, devices_asked h, List.map_append]
  rfl

/-- An event is written to the device that is there. -/
theorem write_eq (h : k.misbehaviour = .none) (hdevice : k.device = some d) (e : Event) :
    Sink.write e k =
      { result := .ok (), sink := { k with device := some (d.call (callOf e)) } } := by
  simp [Sink.write, write, h, hdevice]

theorem calls_write (h : k.misbehaviour = .none) (hdevice : k.device = some d)
    (e : Event) : (Sink.write e k).sink.calls = k.calls ++ [callOf e] := by
  simp [write_eq h hdevice, calls, devices, hdevice, VirtualDevice.call]

theorem constructions_write (h : k.misbehaviour = .none) (hdevice : k.device = some d) (e : Event) :
    (Sink.write e k).sink.constructions = k.constructions := by
  simp [write_eq h hdevice, constructions, devices, hdevice, VirtualDevice.call]

end Device.Kernel

/-! ## Sessions that mirror each other -/

variable {σ : Type}

/-- The sessions stand at the same point, and neither sink will fail. -/
structure Session.Mirrors (s : Session σ Recorder) (s' : Session σ Kernel) : Prop where
  host : s'.host = s.host
  environment : s'.environment = s.environment
  input : s'.input = s.input
  echoed : s'.echoed = s.echoed
  isOpen : s'.isOpen = s.isOpen
  faults : s.sink.faults = {}
  misbehaviour : s'.sink.misbehaviour = .none
  /-- There is a device if the handle is open. -/
  device : s'.isOpen = true → s'.sink.device ≠ none

/-- The runners have the same settings, but for the one that chooses the sink, and their sessions
mirror each other. -/
structure Runner.Mirrors (r : Runner σ Recorder) (r' : Runner σ Kernel) : Prop where
  settings : ∃ b, r'.settings = { r.settings with dryRun := b }
  session : r.session.Mirrors r'.session

/-- What came to the two sinks since: the same events and the same creations. -/
structure Device.Mirrored (p : Profile) (w₀ : Recorder) (k₀ : Kernel) (w : Recorder) (k : Kernel) :
    Prop where
  events : ∃ events, w.events = w₀.events ++ events ∧
    k.calls = k₀.calls ++ events.map Kernel.callOf
  creations : ∃ made, w.created = w₀.created + made.length ∧
    k.constructions = k₀.constructions ++ made ∧
    (∀ c ∈ made, c.capabilities = .ofProfile p ∧ c.identity = .ofProfile p) ∧
    (made ≠ [] → w.declared = some (.ofProfile p, .ofProfile p))

theorem Device.Mirrored.refl (p : Profile) (w : Recorder) (k : Kernel) : Mirrored p w k w k :=
  ⟨⟨[], by simp⟩, ⟨[], by simp⟩⟩

namespace Device.Recorder

variable {w : Recorder}

theorem asked_eq (h : w.faults = {}) (p : Profile) :
    (asked p w).result = .ok () ∧
      (asked p w).sink =
        { w with declared := some (.ofProfile p, .ofProfile p), created := w.created + 1 } := by
  simp [asked, Sink.create, create, h]

theorem isFull_of_faults (h : w.faults = {}) : w.isFull = false := by
  rw [isFull, h]

end Device.Recorder

variable {p : Profile} {w₀ : Recorder} {k₀ : Kernel} {s : Session σ Recorder} {s' : Session σ Kernel}

theorem Device.Mirrored.asked {w : Recorder} {k : Kernel} (h : Mirrored p w₀ k₀ w k)
    (hw : w.faults = {}) (hk : k.misbehaviour = .none) :
    Mirrored p w₀ k₀ (asked p w).sink (asked p k).sink := by
  obtain ⟨events, hevents, hcalls⟩ := h.events
  obtain ⟨made, hcreated, hconstructions, hmade, -⟩ := h.creations
  have hasked := (Recorder.asked_eq hw p).2
  refine ⟨⟨events, ?_, ?_⟩, made ++ [k.construction (.ofProfile p) (.ofProfile p)], ?_, ?_, ?_, ?_⟩
  · rw [hasked]
    exact hevents
  · rw [Kernel.calls_asked hk, hcalls]
  · rw [hasked, List.length_append]
    show w.created + 1 = w₀.created + (made.length + 1)
    omega
  · rw [Kernel.constructions_asked hk, hconstructions, List.append_assoc]
  · refine List.forall_mem_append.mpr ⟨hmade, List.forall_mem_singleton.mpr ⟨?_, rfl⟩⟩
    exact k.capabilities_construction p
  · intro _
    rw [hasked]

theorem Device.Mirrored.write {w : Recorder} {k : Kernel} (h : Mirrored p w₀ k₀ w k)
    (hw : w.faults = {}) (hk : k.misbehaviour = .none) {d : VirtualDevice}
    (hdevice : k.device = some d) (e : Event) :
    Mirrored p w₀ k₀ (Sink.write e w).sink (Sink.write e k).sink := by
  obtain ⟨events, hevents, hcalls⟩ := h.events
  have hroom := Recorder.isFull_of_faults hw
  have hwrite : Sink.write e w = _ := Recorder.write_eq hroom e
  refine ⟨⟨events ++ [e], ?_, ?_⟩, ?_⟩
  · show (Recorder.write e w).sink.events = _
    rw [Recorder.events_write hroom, hevents, List.append_assoc]
  · rw [Kernel.calls_write hk hdevice, hcalls, List.map_append, List.append_assoc]
    rfl
  · rw [hwrite, Kernel.constructions_write hk hdevice]
    exact h.creations

/-- Each call of the two sinks keeps the sessions alike. -/
theorem lockstep_mirrors [Host σ] (p : Profile) (w₀ : Recorder) (k₀ : Kernel) :
    Lockstep p fun (s : Session σ Recorder) (s' : Session σ Kernel) =>
      s.Mirrors s' ∧ Device.Mirrored p w₀ k₀ s.sink s'.sink where
  bare := by
    rintro s s' ⟨h, -⟩
    rw [Session.bare, Session.bare, h.host, h.environment, h.input]
  isOpen h := h.1.isOpen
  after := by
    rintro s s' ⟨h, hsinks⟩ t
    refine ⟨?_, hsinks⟩
    exact { h with
      host := rfl
      environment := rfl
      input := rfl
      echoed := congrArg (t.echoed ++ ·) h.echoed }
  asked h _ := by
    rw [(Kernel.asked_eq h.1.misbehaviour p).1, (Recorder.asked_eq h.1.faults p).1]
  refused := by
    rintro s s' e ⟨h, -⟩ - hrefused
    rw [(Recorder.asked_eq h.faults p).1] at hrefused
    cases hrefused
  created := by
    rintro s s' ⟨h, hsinks⟩ - -
    refine ⟨{ h with isOpen := rfl, faults := ?_, misbehaviour := ?_, device := ?_ },
      hsinks.asked h.faults h.misbehaviour⟩
    · show (Device.asked p s.sink).sink.faults = {}
      rw [(Recorder.asked_eq h.faults p).2]
      exact h.faults
    · show (Device.asked p s'.sink).sink.misbehaviour = .none
      rw [(Kernel.asked_eq h.misbehaviour p).2]
      exact h.misbehaviour
    · intro _
      show (Device.asked p s'.sink).sink.device ≠ none
      rw [(Kernel.asked_eq h.misbehaviour p).2]
      exact Option.some_ne_none _
  written := by
    rintro s s' ⟨h, -⟩ hopen e
    obtain ⟨d, hdevice⟩ := Option.ne_none_iff_exists'.mp (h.device (h.isOpen.trans hopen))
    rw [Kernel.write_eq h.misbehaviour hdevice]
    exact (congrArg Device.Reply.result
      (Recorder.write_eq (Recorder.isFull_of_faults h.faults) e)).symm
  wrote := by
    rintro s s' ⟨h, hsinks⟩ hopen e
    obtain ⟨d, hdevice⟩ := Option.ne_none_iff_exists'.mp (h.device (h.isOpen.trans hopen))
    have hwrite : Sink.write e s.sink = _ :=
      Recorder.write_eq (Recorder.isFull_of_faults h.faults) e
    refine ⟨{ h with faults := ?_, misbehaviour := ?_, device := ?_ },
      hsinks.write h.faults h.misbehaviour hdevice e⟩
    · show (Sink.write e s.sink).sink.faults = {}
      rw [hwrite]
      exact h.faults
    · show (Sink.write e s'.sink).sink.misbehaviour = .none
      rw [Kernel.write_eq h.misbehaviour hdevice]
      exact h.misbehaviour
    · intro _
      show (Sink.write e s'.sink).sink.device ≠ none
      rw [Kernel.write_eq h.misbehaviour hdevice]
      exact Option.some_ne_none _

/-! ## The setting that chooses the sink -/

section Setting

variable {ω : Type} [Host σ] [Sink ω]

/-- No step of the machine looks at the setting. -/
theorem Machine.step_dryRun (settings : Settings) (b : Bool) :
    (step { settings with dryRun := b } : List Activation → Session σ ω → Conf σ ω) =
      step settings := rfl

theorem Machine.proceed_dryRun (settings : Settings) (b : Bool) (n : Nat) (c : Conf σ ω) :
    proceed { settings with dryRun := b } n c = proceed settings n c := by
  induction n generalizing c with
  | zero => rw [proceed_zero, proceed_zero]
  | succ n ih =>
      obtain ⟨activations | o, s⟩ := c
      · rw [proceed_succ_running, proceed_succ_running, step_dryRun, ih]
      · rw [proceed_done, proceed_done]

theorem Machine.start_dryRun (settings : Settings) (b : Bool) (launch : Launch) :
    (launch.start { settings with dryRun := b } : Session σ ω → Conf σ ω) =
      launch.start settings := by
  cases launch <;> rfl

theorem Task.outcome_dryRun (task : Task) (settings : Settings) (b : Bool) (fuel : Nat)
    (s : Session σ ω) :
    task.outcome { settings with dryRun := b } fuel s = task.outcome settings fuel s := by
  have hrun : ∀ (launch : Machine.Launch) (s : Session σ ω),
      launch.run { settings with dryRun := b } fuel s = launch.run settings fuel s := by
    intro launch s
    rw [Machine.Launch.run_eq, Machine.Launch.run_eq, Machine.proceed_dryRun, Machine.start_dryRun]
  cases task with
  | command words => exact hrun (.command words) s
  | lines text name => exact hrun (.script _ _) s
  | path file name =>
      rw [outcome, outcome]
      rcases (Machine.openFeed file).exec s with ⟨(f | c) | feed, t⟩
      · rfl
      · rfl
      · exact hrun (.script _ feed) t

/-- The setting makes no difference to a run, but that it stays as it is. -/
theorem Task.run_dryRun (task : Task) (fuel : Nat) (r : Runner σ ω) (b : Bool) :
    task.run fuel { r with settings := { r.settings with dryRun := b } } =
      ((task.run fuel r).1,
        { (task.run fuel r).2 with settings := { r.settings with dryRun := b } }) := by
  rw [run_eq, run_eq, outcome_dryRun]
  rcases task.outcome r.settings fuel r.session with ⟨_ | _ | _, s⟩ <;> rfl

end Setting

/-! ## Runs -/

/-- The same is launched on both sinks. -/
theorem Task.Launches.mirrors [Host σ] {task : Task} {launch : Machine.Launch}
    (h : task.Launches s launch) (hs : s.Mirrors s') : task.Launches s' launch := by
  cases h with
  | command words => exact .command words
  | lines text name => exact .lines text name
  | path hopen =>
      rename_i file name feed
      have hagrees := (Act.Parallel.openFeed file).agrees
        (lockstep_mirrors {} s.sink s'.sink).simulation ⟨hs, .refl {} s.sink s'.sink⟩
      rw [hopen] at hagrees
      rcases Machine.exec_openFeed file s' with ⟨feed', hopen'⟩ | ⟨f, hopen'⟩ | ⟨-, hopen'⟩ <;>
        rw [hopen'] at hagrees <;> cases hagrees.1
      exact .path hopen'

/-- **Dry-run fidelity.**  Let two runners stand at the same point, the one on a recorder that does
not fail and the other on a device that does not fail, with the same settings but for the one that
chooses between the two.  Whatever task they run, within any number of steps, the results are the
same, and the runners stand at the same point again: the host with its clock and its sleeps, the
environment, the standard input, the output and the handle are the same.  On the way the machine goes
through the same states, step by step.  The calls on the device are the images of the events that are
recorded.  The device is constructed as often as the recorder is created, each time from the
capabilities and the identity that the recorder was told. -/
theorem dry_run_fidelity [Host σ] (task : Task) (fuel : Nat) (r : Runner σ Recorder)
    (r' : Runner σ Kernel) (h : r.Mirrors r') :
    (task.run fuel r').1 = (task.run fuel r).1 ∧
    (task.run fuel r).2.Mirrors (task.run fuel r').2 ∧
    (∀ launch, task.Launches r.session launch → task.Launches r'.session launch ∧
      ∀ n, (Machine.proceed r'.settings n (launch.start r'.settings r'.session)).1 =
        (Machine.proceed r.settings n (launch.start r.settings r.session)).1) ∧
    (∃ events,
      (task.run fuel r).2.session.sink.events = r.session.sink.events ++ events ∧
      (task.run fuel r').2.session.sink.calls =
        r'.session.sink.calls ++ events.map Kernel.callOf) ∧
    ∃ made,
      (task.run fuel r).2.session.sink.created = r.session.sink.created + made.length ∧
      (task.run fuel r').2.session.sink.constructions = r'.session.sink.constructions ++ made ∧
      ∀ c ∈ made,
        (task.run fuel r).2.session.sink.declared = some (c.capabilities, c.identity) := by
  obtain ⟨settings', session', closed'⟩ := r'
  obtain ⟨⟨b, hsettings⟩, hsession⟩ := h
  obtain rfl : settings' = { r.settings with dryRun := b } := hsettings
  have hR := (lockstep_mirrors (σ := σ) r.settings.device r.session.sink session'.sink).simulation
  have hstart : r.session.Mirrors session' ∧ Device.Mirrored r.settings.device r.session.sink
      session'.sink r.session.sink session'.sink := ⟨hsession, .refl _ _ _⟩
  obtain ⟨hresult, hmirrors, hsinks⟩ := Task.agrees_task hR task fuel r
    { settings := r.settings, session := session', closed := closed' } rfl rfl hstart
  rw [Task.run_dryRun task fuel { settings := r.settings, session := session', closed := closed' } b]
  obtain ⟨made, hcreated, hconstructions, hmade, hdeclared⟩ := hsinks.creations
  refine ⟨hresult, ⟨⟨b, ?_⟩, hmirrors⟩, fun launch hlaunch => ⟨hlaunch.mirrors hsession, fun n => ?_⟩,
    hsinks.events, made, hcreated, hconstructions, fun c hc => ?_⟩
  · rw [task.runner_run fuel r]
  · rw [Machine.proceed_dryRun, Machine.start_dryRun]
    exact ((Machine.agrees_start hR launch).andThen (Machine.agrees_proceed hR n) hstart).1
  · rw [(hmade c hc).1, (hmade c hc).2]
    exact hdeclared (List.ne_nil_of_mem hc)

/-- Keys and a wheel in one frame, twice, with a pause; then the script is in error. -/
def rehearsal : Task :=
  .lines [.text "loop 2\n", .text "input KEYDOWN=KEY_A REL_WHEEL=1\n", .text "sleep 0.5\n",
    .text "end\n", .text "else\n"] none

/-- A runner that rehearses. -/
def rehearsing : Runner Sandbox Recorder :=
  { settings := { dryRun := true }, session := { Machine.idle with sink := { dryRun := true } } }

/-- A runner that performs. -/
def performing : Runner Sandbox Kernel :=
  { session := { host := Machine.idle.host, sink := {} } }

theorem dry_run_fidelity_rehearsal :
    rehearsing.Mirrors performing ∧
      (rehearsal.run 20 performing).1 = (rehearsal.run 20 rehearsing).1 ∧
      (rehearsal.run 20 performing).1.status? = some .scriptError ∧
      (rehearsal.run 20 performing).2.session.sink.calls =
        [.write (.key 30 true), .write (.relative 8 1), .write (.relative 11 120), .sync,
          .write (.key 30 true), .write (.relative 8 1), .write (.relative 11 120), .sync] ∧
      (rehearsal.run 20 performing).2.session.sink.constructions.length = 1 := by
  have hmirrors : rehearsing.Mirrors performing :=
    ⟨⟨false, rfl⟩, ⟨rfl, rfl, rfl, rfl, rfl, rfl, rfl, nofun⟩⟩
  have hrecorded : (rehearsal.run 20 rehearsing).1.status? = some .scriptError ∧
      (rehearsal.run 20 rehearsing).2.session.sink.events =
        [.key 30 true, .relative 8 1, .relative 11 120, .sync,
          .key 30 true, .relative 8 1, .relative 11 120, .sync] ∧
      (rehearsal.run 20 rehearsing).2.session.sink.created = 1 := by
    decide +kernel
  obtain ⟨hresult, -, -, ⟨events, hevents, hcalls⟩, made, hcreated, hconstructions, -⟩ :=
    dry_run_fidelity rehearsal 20 rehearsing performing hmirrors
  obtain rfl : events = _ := hevents.symm.trans hrecorded.2.1
  refine ⟨hmirrors, hresult, ?_, hcalls, ?_⟩
  · rw [hresult]
    exact hrecorded.1
  · rw [hconstructions]
    show made.length = 1
    have hcount : 1 = 0 + made.length := hrecorded.2.2.symm.trans hcreated
    omega

end InputScript
