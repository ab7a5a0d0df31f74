import InputScript.Proofs.Rationing
import InputScript.Proofs.Stack
import InputScript.Proofs.Task

/-!
# Runs stop at a failed write

A run is compared with the same run on a writer that fails after some writes.  The failure has to
cross whatever stands between the write and the end of the run: the rest of an action that writes
several events, the bodies of loops, branches, and the scripts that called.  Nothing on the way
takes it for something to go on with, and nothing is written or echoed after it; so the second run
has written the first events of the first one, and has echoed the beginning of its text.

## Main results

* `stops_step`, `stops_proceed`, `stops_run` — a step, any number of steps and a run stop.
* `fail_stop` — so does everything that a runner runs, with a fatal result.
-/

namespace InputScript

open Device (Sink)

variable {σ ω ω' : Type} [Sink ω] [Sink ω'] {ρ : Device.Rationing ω ω'}

/-! ## Runs -/

namespace Machine

/-- The run was ended by a write that failed. -/
def Outcome.WriteFailed (o : Outcome) : Prop :=
  ∃ f error, o = .failure f ∧ f.fault = .deviceWrite error

/-- The machine was stopped by a write that failed. -/
def Status.WriteFailed (status : Status) : Prop :=
  ∃ o : Outcome, status = .done o ∧ o.WriteFailed

variable [Host σ] (settings : Settings) (activations : List Activation)

omit [Sink ω] in
/-- Abandoning scripts writes nothing, and keeps what the failure is about. -/
theorem abandon_keeps (inherited : Option Countdown) (f : Failure) (activations : List Activation)
    (s : Session σ ω) :
    ∃ f' t, (abandon inherited f activations : Act σ ω Failure).exec s = (.ok f', t) ∧
      f'.fault = f.fault ∧ t.sink = s.sink ∧ t.echoed = s.echoed := by
  have hpublish : ∀ c (s : Session σ ω), ((publish c : Act σ ω Unit).exec s).2.sink = s.sink ∧
      ((publish c : Act σ ω Unit).exec s).2.echoed = s.echoed := by
    rintro (_ | ⟨remaining, _ | deadline⟩) s <;> exact ⟨rfl, rfl⟩
  induction activations generalizing f s with
  | nil => exact ⟨f, s, rfl, rfl, rfl, rfl⟩
  | cons a callers ih =>
      cases callers with
      | nil =>
          rw [abandon_singleton, Act.exec_bind_of_ok (exec_publish _ s)]
          exact ⟨f, _, rfl, rfl, hpublish inherited s⟩
      | cons caller callers =>
          rw [abandon_cons, Act.exec_bind_of_ok (exec_publish _ s)]
          obtain ⟨hsink, hecho⟩ := hpublish (countdown? inherited (caller :: callers)) s
          obtain ⟨f', t, hexec, hfault, hsink', hecho'⟩ := ih (f.locate caller.source a.calledFrom)
            ((publish (countdown? inherited (caller :: callers)) : Act σ ω Unit).exec s).2
          exact ⟨f', t, hexec, hfault, hsink'.trans hsink, hecho'.trans hecho⟩

/-- How a run ends after its scripts were abandoned. -/
def ending : Except (Trouble Failure) Failure → Status
  | .ok f | .error (.fault f) => .done (.failure f)
  | .error (.crash c) => .done (.crash c)

omit [Sink ω] in
theorem settle_throw_fault (f : Failure) (s : Session σ ω) :
    settle activations (throw (.fault f)) s =
      (ending ((abandon none f activations : Act σ ω _).exec s).1,
        ((abandon none f activations : Act σ ω _).exec s).2) := by
  obtain ⟨f', t, habandon, -⟩ := abandon_keeps none f activations s
  rw [habandon]
  exact settle_of_fault rfl habandon

omit [Sink ω] in
/-- A step comes to what the result of its turn says. -/
theorem settle_eq (act : Act σ ω (Nat × List Activation)) (s : Session σ ω) :
    settle activations act s =
      settle activations (MonadExcept.ofExcept (act.exec s).1) (act.exec s).2 := by
  refine settle_congr ?_
  rcases act.exec s with ⟨e | r, t⟩ <;> rfl

variable [Nonempty ω']

theorem stops_settle_ofExcept (r : Except (Trouble Failure) (Nat × List Activation)) :
    Stops ρ Status.WriteFailed
      (settle activations (MonadExcept.ofExcept r) : Session σ ω → Status × Session σ ω)
      (settle activations (MonadExcept.ofExcept r)) := by
  rcases r with (f | c) | ⟨_ | levels, _ | ⟨a, callers⟩⟩
  · change Stops ρ Status.WriteFailed (fun s => settle activations (throw (.fault f)) s)
      (fun s => settle activations (throw (.fault f)) s)
    simp only [settle_throw_fault]
    refine (Act.Parallel.abandon (p := {}) none f activations).failStop.andThen
      (fun r => .still (ending r)) ?_
    rintro r ⟨f, error, rfl, hfault⟩ s
    exact ⟨⟨.failure f, rfl, f, error, rfl, hfault⟩, rfl, rfl⟩
  · exact .still (Status.done (.crash c))
  · exact .still (Status.done .success)
  · exact .still (Status.running (a :: callers))
  · exact .still (Status.done (.crash .strayBreak))
  · exact .still (Status.done (.crash .strayBreak))

/-- A step of the machine stops where its turn does. -/
theorem stops_settle {act : Act σ ω (Nat × List Activation)}
    {act' : Act σ ω' (Nat × List Activation)} (h : Act.FailStop ρ act act') :
    Stops ρ Status.WriteFailed (settle activations act) (settle activations act') := by
  rw [funext (settle_eq activations act), funext (settle_eq activations act')]
  refine Stops.andThen h (stops_settle_ofExcept activations) ?_
  rintro r ⟨f, error, rfl, hfault⟩ s
  obtain ⟨f', t, habandon, hfault', hsink, hecho⟩ := abandon_keeps none f activations s
  have hthrow : (MonadExcept.ofExcept (.error (.fault f)) : Act σ ω' (Nat × List Activation)).exec
      s = (.error (.fault f), s) := rfl
  rw [settle_of_fault hthrow habandon]
  exact ⟨⟨.failure f', rfl, f', error, rfl, hfault'.trans hfault⟩, hsink, hecho⟩

omit [Nonempty ω'] in
/-- Nothing happens any more after a write failed. -/
theorem proceed_of_writeFailed (fuel : Nat) {status : Status} (h : status.WriteFailed)
    (s : Session σ ω') :
    proceed settings fuel (status, s) = (status, s) := by
  obtain ⟨o, rfl, -⟩ := h
  exact proceed_done fuel o s

/-- A step of the machine stops if a write fails. -/
theorem stops_step :
    Stops ρ Status.WriteFailed (step settings activations : Session σ ω → Status × Session σ ω)
      (step settings activations) :=
  stops_settle activations (Act.Parallel.turn settings none activations).failStop

/-- So does any number of steps. -/
theorem stops_proceed (fuel : Nat) (status : Status) :
    Stops ρ Status.WriteFailed (fun s : Session σ ω => proceed settings fuel (status, s))
      (fun s => proceed settings fuel (status, s)) := by
  induction fuel generalizing status with
  | zero =>
      simp only [proceed_zero]
      exact .still status
  | succ fuel ih =>
      cases status with
      | done o =>
          simp only [proceed_done]
          exact .still _
      | running activations =>
          refine Stops.andThen (stops_step settings activations) ih fun status hfailed s => ?_
          rw [proceed_of_writeFailed settings fuel hfailed]
          exact ⟨hfailed, rfl, rfl⟩

theorem stops_start (launch : Launch) :
    Stops ρ Status.WriteFailed (launch.start settings : Session σ ω → Status × Session σ ω)
      (launch.start settings) := by
  cases launch with
  | script source feed =>
      exact .aside (fun s => (.running [freshScript source 0 feed],
        { s with journal := .scriptStarted source 0 :: s.journal })) (fun _ => rfl) fun _ => rfl
  | command words =>
      cases words with
      | nil => exact .still (Status.done .success)
      | cons word rest =>
          have hdispatch : Act.Parallel settings.device
              (located freshCommand.source none
                (dispatch settings none freshCommand (word :: rest) none) : Act σ ω Move)
              (located freshCommand.source none
                (dispatch settings none freshCommand (word :: rest) none) : Act σ ω' Move) :=
            (Act.Parallel.dispatch settings none freshCommand (word :: rest) none).located _ _
          exact stops_settle [freshCommand] (hdispatch.andThen fun m => .follow none [] m).failStop

omit [Host σ] [Nonempty ω'] in
theorem stops_answer (status : Status) :
    Stops ρ Outcome.WriteFailed (fun s : Session σ ω => Conf.answer (status, s))
      (fun s => Conf.answer (status, s)) := by
  cases status with
  | running activations => exact .still (Outcome.crash .endless)
  | done o => exact .still o

/-- A top-level run stops if a write fails. -/
theorem stops_run (fuel : Nat) (launch : Launch) :
    Stops ρ Outcome.WriteFailed (launch.run settings fuel : Session σ ω → Outcome × Session σ ω)
      (launch.run settings fuel) := by
  have hsteps : Stops ρ Status.WriteFailed
      (fun s : Session σ ω => proceed settings fuel (launch.start settings s))
      (fun s => proceed settings fuel (launch.start settings s)) := by
    refine (stops_start settings launch).andThen (stops_proceed settings fuel)
      fun status hfailed s => ?_
    rw [proceed_of_writeFailed settings fuel hfailed]
    exact ⟨hfailed, rfl, rfl⟩
  rw [funext (Launch.run_eq fuel launch), funext (Launch.run_eq fuel launch)]
  refine hsteps.andThen stops_answer ?_
  rintro status ⟨o, rfl, hfailed⟩ s
  exact ⟨hfailed, rfl, rfl⟩

end Machine

/-! ## The runner -/

/-- The run was stopped by a write that failed. -/
def RunResult.WriteFailed (result : RunResult) : Prop :=
  ∃ f error, result = .failed f ∧ f.fault = .deviceWrite error

theorem RunResult.WriteFailed.fatal {result : RunResult} (h : result.WriteFailed) :
    result.status? = some .fatal ∧ ∃ f, result = .failed f ∧ f.report.kind = .deviceOutput := by
  obtain ⟨⟨fault, source, line⟩, error, rfl, hfault⟩ := h
  obtain rfl : fault = .deviceWrite error := hfault
  exact ⟨rfl, _, rfl, rfl⟩

namespace Task

open Machine (Launch Outcome)

variable [Host σ]

section

variable [Nonempty ω']

theorem stops_opened (settings : Settings) (fuel : Nat) (source : String)
    (r : Except (Trouble Failure) Machine.Feed) :
    Stops ρ Outcome.WriteFailed
      (opened settings fuel source r : Session σ ω → Outcome × Session σ ω)
      (opened settings fuel source r) := by
  rcases r with (f | c) | feed
  · exact .still (Outcome.failure f)
  · exact .still (Outcome.crash c)
  · exact Machine.stops_run settings fuel (.script source feed)

theorem stops_outcome (task : Task) (settings : Settings) (fuel : Nat) :
    Stops ρ Outcome.WriteFailed (task.outcome settings fuel : Session σ ω → Outcome × Session σ ω)
      (task.outcome settings fuel) := by
  cases task with
  | command words => exact Machine.stops_run settings fuel (.command words)
  | lines text name =>
      exact Machine.stops_run settings fuel
        (.script (Runner.sourceName name "-") { pending := some text })
  | path file name =>
      have hopen : Act.FailStop ρ (Machine.openFeed file : Act σ ω _) (Machine.openFeed file) :=
        (Act.Parallel.openFeed (p := settings.device) file).failStop
      refine Stops.andThen hopen (stops_opened settings fuel (Runner.sourceName name file)) ?_
      rintro r ⟨f, error, rfl, hfault⟩ s
      exact ⟨⟨f, error, rfl, hfault⟩, rfl, rfl⟩

end

omit [Host σ] in
theorem stops_conclude (r : Runner σ ω) (r' : Runner σ ω') (o : Outcome) :
    Stops ρ RunResult.WriteFailed
      (fun s => ((r.conclude (o, s)).1, (r.conclude (o, s)).2.session))
      (fun s => ((r'.conclude (o, s)).1, (r'.conclude (o, s)).2.session)) := by
  cases o with
  | success => exact .still RunResult.success
  | crash c => exact .still (RunResult.crashed c)
  | failure f =>
      exact .aside (fun s => (.failed f, { s with journal := .runFailed f.report :: s.journal }))
        (fun _ => rfl) fun _ => rfl

/-- How a task comes out with two runners whose sessions are alike. -/
theorem progress_run (task : Task) (fuel : Nat) {r : Runner σ ω} {r' : Runner σ ω'} {n : Nat}
    (hsettings : r'.settings = r.settings) (halike : Alike ρ n r.session r'.session) :
    Progress ρ RunResult.WriteFailed n r.session.sink r'.session.sink
      ((task.run fuel r).1, (task.run fuel r).2.session)
      ((task.run fuel r').1, (task.run fuel r').2.session) := by
  have : Nonempty ω' := ⟨r'.session.sink⟩
  rw [run_eq, run_eq, hsettings]
  refine Stops.progress (Stops.andThen (stops_outcome task r.settings fuel)
    (stops_conclude r r') ?_) halike
  rintro o ⟨f, error, rfl, hfault⟩ s
  exact ⟨⟨f, error, rfl, hfault⟩, rfl, rfl⟩

end Task

omit [Sink ω] [Sink ω'] in
/-- What was echoed before is a prefix of the output. -/
theorem Session.output_of_suffix {s : Session σ ω} {s' : Session σ ω'}
    (h : s'.echoed <:+ s.echoed) : ∃ more, s.output = s'.output ++ more := by
  obtain ⟨later, hlater⟩ := h
  refine ⟨String.join later.reverse, ?_⟩
  rw [output, output, ← hlater, List.reverse_append, String.join_append]

/-- **Fail-stop on device failure.**  Let a task be run by two runners that have the same settings
and start from the same session, but for the sinks: the writes on that of the first succeed, and
those on that of the second do until `n` were made.  Then the second run writes exactly the first
`n` of the events that the first one writes.  If that is not all of them, the run is fatal, as a
failure to write to the device, and what it echoed is a prefix of what the first echoed.  If it is
all of them, the two runs have the same result and leave the same session.

The number of steps that is allowed is the same for both, and may be any: within as many as the
first run takes to its end, the second comes to its own. -/
theorem fail_stop [Host σ] (ρ : Device.Rationing ω ω') (task : Task) (fuel n : Nat)
    (r : Runner σ ω) (r' : Runner σ ω') (hsettings : r'.settings = r.settings)
    (hsession : r'.session.apart = r.session.apart)
    (hallows : ρ.Allows n r.session.sink r'.session.sink) :
    ∃ events,
      ρ.written (task.run fuel r).2.session.sink = ρ.written r.session.sink ++ events ∧
      ρ.written' (task.run fuel r').2.session.sink =
        ρ.written' r'.session.sink ++ events.take n ∧
      (n < events.length →
        (task.run fuel r').1.status? = some .fatal ∧
        (∃ f, (task.run fuel r').1 = .failed f ∧ f.report.kind = .deviceOutput) ∧
        ∃ more, (task.run fuel r).2.session.output =
          (task.run fuel r').2.session.output ++ more) ∧
      (events.length ≤ n →
        (task.run fuel r').1 = (task.run fuel r).1 ∧
        (task.run fuel r').2.session.apart = (task.run fuel r).2.session.apart) := by
  cases task.progress_run fuel hsettings ⟨hsession, hallows⟩ with
  | together events hlength hwritten hwritten' hresult halike =>
      refine ⟨events, hwritten, ?_, fun hless => ?_, fun _ => ⟨hresult, halike.apart⟩⟩
      · rw [List.take_of_length_le hlength]
        exact hwritten'
      · omega
  | stopped events hlength hwritten hwritten' hfailed hecho =>
      refine ⟨events, hwritten, hwritten', fun _ => ?_, fun hle => ?_⟩
      · exact ⟨hfailed.fatal.1, hfailed.fatal.2, Session.output_of_suffix hecho⟩
      · omega

/-- A key is pressed twice, and each time the press is echoed. -/
def pressTwice : Task :=
  .lines [.text "loop 2\n", .text "keydown KEY_A\n", .text "echo pressed\n", .text "end\n"] none

/-- A runner whose device is there. -/
def ready (sink : Device.Recorder) : Runner Sandbox Device.Recorder :=
  { session := { Machine.idle with sink, isOpen := true } }

/-- The write that ends the second press fails. -/
theorem fail_stop_pressTwice :
    (pressTwice.run 20 (ready {})).2.session.sink.events =
        [.key 30 true, .sync, .key 30 true, .sync] ∧
      (pressTwice.run 20 (ready {})).1 = .success ∧
      (pressTwice.run 20 (ready (Device.Recorder.limited 3 {}))).2.session.sink.events =
        [.key 30 true, .sync, .key 30 true] ∧
      (pressTwice.run 20 (ready (Device.Recorder.limited 3 {}))).1.status? = some .fatal := by
  have hwrites : (pressTwice.run 20 (ready {})).2.session.sink.events =
      [.key 30 true, .sync, .key 30 true, .sync] := by decide +kernel
  obtain ⟨events, hwritten, hwritten', hstops, -⟩ := fail_stop Device.Recorder.rationing pressTwice
    20 3 (ready {}) (ready (Device.Recorder.limited 3 {})) rfl rfl ⟨rfl, rfl⟩
  obtain rfl : events = [.key 30 true, .sync, .key 30 true, .sync] := hwritten.symm.trans hwrites
  exact ⟨hwrites, by decide +kernel, hwritten', (hstops (by decide)).1⟩

end InputScript
