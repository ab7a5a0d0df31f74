import InputScript.Proofs.Handle
import InputScript.Proofs.Parallel

/-!
# Writers that fail after some writes

Two sinks are compared: the writes on the first succeed, and the second is the same but for a limit
on the writes that succeed.  `Device.Rationing` says so with a relation between their states, and
with the events that have been written on each; a recorder is such a sink (`Recorder.rationing`).

Whatever is done in a session with the one is done in a session with the other, up to the write that
fails; this is a property of stages of a run (`Stops`), and so of actions (`Act.FailStop`).  The two
sessions agree in everything else (`Alike`), so that the same host, the same variables and the same
text are met.  An action can only go on after a failed write if it catches the fault, and no action
does but to attach a position.

The property is closed under all ways of building actions, by one lemma on stages that follow one
another (`Stops.andThenOf`); so it holds of every action that is made in the same way on both sinks.

## Main results

* `Recorder.rationing` — a recorder with and without a limit.
* `Stops.andThenOf` — a stage that stops is followed by another.
* `FailStop.emit` — a write stops if the limit is reached.
* `Parallel.failStop` — so does whatever is made in the same way on both sinks.
-/

namespace InputScript

open Device (Sink Event)

/-! ## Limits -/

/-- Two sinks of which the second is like the first, but for a limit on the writes that succeed. -/
structure Device.Rationing (ω ω' : Type) [Sink ω] [Sink ω'] where
  /-- The second sink is like the first, and this many writes on it will succeed. -/
  Allows : Nat → ω → ω' → Prop
  /-- The events that were written on the first sink, in order. -/
  written : ω → List Event
  /-- The events that were written on the second sink, in order. -/
  written' : ω' → List Event
  create_eq : ∀ {n w w'} caps identity, Allows n w w' →
    (Sink.create caps identity w').result = (Sink.create caps identity w).result ∧
      (Sink.create caps identity w').notes = (Sink.create caps identity w).notes ∧
      Allows n (Sink.create caps identity w).sink (Sink.create caps identity w').sink
  written_create : ∀ caps identity w, written (Sink.create caps identity w).sink = written w
  written'_create : ∀ caps identity w, written' (Sink.create caps identity w).sink = written' w
  sysname_eq : ∀ {n w w'}, Allows n w w' → Sink.sysname w' = Sink.sysname w
  write_ok : ∀ {n w w'} e, Allows n w w' →
    (Sink.write e w).result = .ok () ∧ written (Sink.write e w).sink = written w ++ [e]
  /-- Whatever becomes of the first sink, its events stay written. -/
  written_write : ∀ e w, ∃ more, written (Sink.write e w).sink = written w ++ more
  write_succ : ∀ {n w w'} e, Allows (n + 1) w w' →
    (Sink.write e w').result = .ok () ∧ (Sink.write e w').notes = (Sink.write e w).notes ∧
      Allows n (Sink.write e w).sink (Sink.write e w').sink ∧
      written' (Sink.write e w').sink = written' w' ++ [e]
  write_zero : ∀ {w w'} e, Allows 0 w w' →
    (∃ error, (Sink.write e w').result = .error error) ∧
      written' (Sink.write e w').sink = written' w'

namespace Device.Recorder

/-- A recorder on which so many more writes succeed. -/
def limited (n : Nat) (w : Recorder) : Recorder :=
  { w with faults := { w.faults with writeLimit := some (w.written + n) } }

theorem create_limited (n : Nat) (caps : Capabilities) (identity : Identity) (w : Recorder) :
    (create caps identity (w.limited n)).result = (create caps identity w).result ∧
      (create caps identity (w.limited n)).notes = (create caps identity w).notes ∧
      (create caps identity (w.limited n)).sink = (create caps identity w).sink.limited n := by
  unfold create limited
  cases w.faults.refusedCreations <;> exact ⟨rfl, rfl, rfl⟩

/-- A device is created with the limit and the events of before. -/
theorem create_keeps (caps : Capabilities) (identity : Identity) (w : Recorder) :
    (create caps identity w).sink.faults.writeLimit = w.faults.writeLimit ∧
      (create caps identity w).sink.events = w.events := by
  unfold create
  cases w.faults.refusedCreations <;> exact ⟨rfl, rfl⟩

theorem isFull_limited (n : Nat) (w : Recorder) : (w.limited n).isFull = decide (n = 0) := by
  have hiff : w.written + n ≤ w.written ↔ n = 0 := by omega
  exact decide_eq_decide.2 hiff

theorem isFull_of_writeLimit {w : Recorder} (h : w.faults.writeLimit = none) :
    w.isFull = false := by
  rw [isFull, h]

theorem write_eq {w : Recorder} (hroom : w.isFull = false) (e : Event) :
    write e w =
      { result := .ok ()
        sink := { w with reversed := e :: w.reversed, written := w.written + 1 }
        notes := if w.dryRun then [.dryRunEvent e.type e.code e.value] else [] } := by
  unfold write
  rw [hroom]
  rfl

theorem write_limited_succ {w : Recorder} (hlimit : w.faults.writeLimit = none) (n : Nat)
    (e : Event) :
    (write e (w.limited (n + 1))).notes = (write e w).notes ∧
      (write e (w.limited (n + 1))).sink = (write e w).sink.limited n := by
  have hleft : w.written + (n + 1) = w.written + 1 + n := by omega
  rw [write_eq (isFull_limited (n + 1) w), write_eq (isFull_of_writeLimit hlimit)]
  unfold limited
  rw [hleft]
  exact ⟨rfl, rfl⟩

/-- A recorder without a limit, and the same with one. -/
def rationing : Rationing Recorder Recorder where
  Allows n w w' := w.faults.writeLimit = none ∧ w' = w.limited n
  written := events
  written' := events
  create_eq := by
    rintro n w _ caps identity ⟨hlimit, rfl⟩
    obtain ⟨hresult, hnotes, hsink⟩ := create_limited n caps identity w
    exact ⟨hresult, hnotes, (create_keeps caps identity w).1.trans hlimit, hsink⟩
  written_create caps identity w := (create_keeps caps identity w).2
  written'_create caps identity w := (create_keeps caps identity w).2
  sysname_eq := by
    rintro n w _ ⟨-, rfl⟩
    rfl
  write_ok := by
    rintro n w _ e ⟨hlimit, -⟩
    have hroom := isFull_of_writeLimit hlimit
    exact ⟨congrArg Reply.result (write_eq hroom e), events_write hroom⟩
  written_write e w := by
    cases hfull : w.isFull with
    | false => exact ⟨[e], events_write hfull⟩
    | true => exact ⟨[], (events_write_of_isFull hfull).trans (List.append_nil _).symm⟩
  write_succ := by
    rintro n w _ e ⟨hlimit, rfl⟩
    have hroom : (w.limited (n + 1)).isFull = false := isFull_limited (n + 1) w
    obtain ⟨hnotes, hsink⟩ := write_limited_succ hlimit n e
    have hkeeps : (write e w).sink.faults.writeLimit = none := by
      rw [write_eq (isFull_of_writeLimit hlimit)]
      exact hlimit
    exact ⟨congrArg Reply.result (write_eq hroom e), hnotes, ⟨hkeeps, hsink⟩, events_write hroom⟩
  write_zero := by
    rintro w _ e ⟨-, rfl⟩
    have hfull : (w.limited 0).isFull = true := isFull_limited 0 w
    refine ⟨⟨.errno .noDevice none, ?_⟩, events_write_of_isFull hfull⟩
    change (write e (w.limited 0)).result = _
    unfold write
    rw [hfull]
    rfl

end Device.Recorder

variable {σ ω ω' α β : Type}

/-! ## Like sessions -/

namespace Session

/-- A session apart from its sink. -/
def apart (s : Session σ ω) : Session σ Unit := { s with sink := () }

/-- A session with a sink. -/
def onto (t : Session σ Unit) (w : ω) : Session σ ω := { t with sink := w }

end Session

variable [Sink ω] [Sink ω'] (ρ : Device.Rationing ω ω')

/-- Two sessions that agree but for the limit of the second sink. -/
structure Alike (n : Nat) (s : Session σ ω) (s' : Session σ ω') : Prop where
  apart : s'.apart = s.apart
  allows : ρ.Allows n s.sink s'.sink

/-- What was written and echoed stays so. -/
def Grows (s t : Session σ ω) : Prop :=
  (∃ events, ρ.written t.sink = ρ.written s.sink ++ events) ∧ s.echoed <:+ t.echoed

/-- How far a stage of a run has come with both sinks, where `n` writes on the second may succeed.
Either no more were written, and both have come to the same; or the second was stopped by a failed
write, and with the first the stage may have gone on. -/
inductive Progress (Failed : β → Prop) (n : Nat) (w : ω) (w' : ω') (r : β × Session σ ω)
    (r' : β × Session σ ω') : Prop
  | together (events : List Event) (hlength : events.length ≤ n)
      (hwritten : ρ.written r.2.sink = ρ.written w ++ events)
      (hwritten' : ρ.written' r'.2.sink = ρ.written' w' ++ events) (hresult : r'.1 = r.1)
      (halike : Alike ρ (n - events.length) r.2 r'.2)
  | stopped (events : List Event) (hlength : n < events.length)
      (hwritten : ρ.written r.2.sink = ρ.written w ++ events)
      (hwritten' : ρ.written' r'.2.sink = ρ.written' w' ++ events.take n) (hfailed : Failed r'.1)
      (hecho : r'.2.echoed <:+ r.2.echoed)

variable {ρ} {n : Nat}

namespace Grows

variable {s t u : Session σ ω}

theorem of_eq (hsink : t.sink = s.sink) (hecho : t.echoed = s.echoed) : Grows ρ s t :=
  ⟨⟨[], by rw [hsink, List.append_nil]⟩, hecho ▸ List.suffix_rfl⟩

theorem trans (h : Grows ρ s t) (h' : Grows ρ t u) : Grows ρ s u := by
  obtain ⟨⟨events, hwritten⟩, hecho⟩ := h
  obtain ⟨⟨events', hwritten'⟩, hecho'⟩ := h'
  exact ⟨⟨events ++ events', by rw [hwritten', hwritten, List.append_assoc]⟩, hecho.trans hecho'⟩

end Grows

namespace Alike

variable {s : Session σ ω} {s' : Session σ ω'}

/-- What both sessions show of the rest is the same. -/
theorem view {γ : Type} (h : Alike ρ n s s') (view : Session σ Unit → γ) :
    view s'.apart = view s.apart :=
  congrArg view h.apart

/-- Both sessions are changed in the same way by the same value. -/
theorem apart_congr {γ : Type} {c c' : γ} (h : Alike ρ n s s') (hc : c' = c)
    (f : γ → Session σ Unit → Session σ Unit) : f c' s'.apart = f c s.apart := by
  rw [hc, h.apart]

/-- Both sessions show the same to what is done beside the device. -/
theorem bare (h : Alike ρ n s s') : s'.bare = s.bare := h.view Session.bare

/-- Both sessions are changed in the same way by what is done beside the device. -/
theorem after (h : Alike ρ n s s') (t : Session σ Unit) : Alike ρ n (s.after t) (s'.after t) :=
  ⟨congrArg (Session.after · t) h.apart, h.allows⟩

end Alike

namespace Progress

variable {Failed : β → Prop} {w : ω} {w' : ω'} {r : β × Session σ ω} {r' : β × Session σ ω'}

/-- A stage without a write. -/
theorem of_silent (hwritten : ρ.written r.2.sink = ρ.written w)
    (hwritten' : ρ.written' r'.2.sink = ρ.written' w') (hresult : r'.1 = r.1)
    (halike : Alike ρ n r.2 r'.2) : Progress ρ Failed n w w' r r' :=
  .together [] (Nat.zero_le n) (by rw [hwritten, List.append_nil])
    (by rw [hwritten', List.append_nil]) hresult halike

/-- Stages of a run follow one another.  After a failed write the second run must come to a failure
without writing or echoing; the first may do whatever it likes. -/
theorem andThen {γ : Type} {Failed' : γ → Prop} {t : γ × Session σ ω} {t' : γ × Session σ ω'}
    (h : Progress ρ Failed n w w' r r') (hgrows : Grows ρ r.2 t.2)
    (hnext : ∀ m, Alike ρ m r.2 r'.2 → r'.1 = r.1 →
      Progress ρ Failed' m r.2.sink r'.2.sink t t')
    (hstop : Failed r'.1 → Failed' t'.1 ∧ t'.2.sink = r'.2.sink ∧ t'.2.echoed = r'.2.echoed) :
    Progress ρ Failed' n w w' t t' := by
  cases h with
  | together first hlength hwritten hwritten' hresult halike =>
      cases hnext _ halike hresult with
      | together second hlength₂ hwritten₂ hwritten₂' hresult₂ halike₂ =>
          have hleft : n - (first ++ second).length = n - first.length - second.length := by
            rw [List.length_append, Nat.sub_sub]
          refine .together (first ++ second) ?_ ?_ ?_ hresult₂ (hleft ▸ halike₂)
          · rw [List.length_append]
            omega
          · rw [hwritten₂, hwritten, List.append_assoc]
          · rw [hwritten₂', hwritten', List.append_assoc]
      | stopped second hlength₂ hwritten₂ hwritten₂' hfailed hecho =>
          have htake : (first ++ second).take n = first ++ second.take (n - first.length) := by
            rw [List.take_append, List.take_of_length_le hlength]
          refine .stopped (first ++ second) ?_ ?_ ?_ hfailed hecho
          · rw [List.length_append]
            omega
          · rw [hwritten₂, hwritten, List.append_assoc]
          · rw [hwritten₂', hwritten', htake, List.append_assoc]
  | stopped first hlength hwritten hwritten' hfailed hecho =>
      obtain ⟨⟨second, hmore⟩, hlater⟩ := hgrows
      obtain ⟨hfailed', hsink, hsame⟩ := hstop hfailed
      have htake : (first ++ second).take n = first.take n :=
        List.take_append_of_le_length (Nat.le_of_lt hlength)
      refine .stopped (first ++ second) ?_ ?_ ?_ hfailed' ?_
      · rw [List.length_append]
        omega
      · rw [hmore, hwritten, List.append_assoc]
      · rw [hsink, hwritten', htake]
      · rw [hsame]
        exact hecho.trans hlater

end Progress

/-! ## Stages that stop -/

/-- The second stage is stopped by a failed write, and does until then what the first does. -/
structure Stops (ρ : Device.Rationing ω ω') (Failed : β → Prop) (f : Session σ ω → β × Session σ ω)
    (f' : Session σ ω' → β × Session σ ω') : Prop where
  grows : ∀ s, Grows ρ s (f s).2
  progress : ∀ {n s s'}, Alike ρ n s s' → Progress ρ Failed n s.sink s'.sink (f s) (f' s')

namespace Stops

variable {Failed : β → Prop} {f : Session σ ω → β × Session σ ω}
  {f' : Session σ ω' → β × Session σ ω'}

/-- A stage that leaves the device alone. -/
theorem aside (base : Session σ Unit → β × Session σ Unit)
    (hf : ∀ s, f s = ((base s.bare).1, s.after (base s.bare).2))
    (hf' : ∀ s, f' s = ((base s.bare).1, s.after (base s.bare).2)) : Stops ρ Failed f f' := by
  refine ⟨fun s => ?_, fun {n s s'} halike => ?_⟩
  · rw [hf]
    exact ⟨⟨[], (List.append_nil _).symm⟩, List.suffix_append _ _⟩
  · rw [hf, hf', halike.bare]
    exact .of_silent rfl rfl rfl (halike.after _)

/-- A stage that changes nothing. -/
theorem still (b : β) :
    Stops ρ Failed (fun s : Session σ ω => (b, s)) (fun s : Session σ ω' => (b, s)) :=
  aside (fun s => (b, s)) (fun _ => rfl) fun _ => rfl

variable {γ : Type} {Failed' : γ → Prop} {g : β → Session σ ω → γ × Session σ ω}
  {g' : β → Session σ ω' → γ × Session σ ω'}

/-- A stage goes by the result of another.  Where that is a failure, nothing is written or echoed
any more, and the result is one too. -/
theorem andThenOf (h : Stops ρ Failed f f') (hnext : ∀ s, Stops ρ Failed' (g (f s).1) (g' (f s).1))
    (hstop : ∀ b, Failed b → ∀ s, Failed' (g' b s).1 ∧ (g' b s).2.sink = s.sink ∧
      (g' b s).2.echoed = s.echoed) :
    Stops ρ Failed' (fun s => g (f s).1 (f s).2) (fun s => g' (f' s).1 (f' s).2) := by
  refine ⟨fun s => (h.grows s).trans ((hnext s).grows _), fun {n s s'} halike => ?_⟩
  refine (h.progress halike).andThen ((hnext s).grows _) (fun m hmid hsame => ?_) fun hfailed =>
    hstop _ hfailed _
  rw [hsame]
  exact (hnext s).progress hmid

/-- A stage may go by any result of another. -/
theorem andThen (h : Stops ρ Failed f f') (hnext : ∀ b, Stops ρ Failed' (g b) (g' b))
    (hstop : ∀ b, Failed b → ∀ s, Failed' (g' b s).1 ∧ (g' b s).2.sink = s.sink ∧
      (g' b s).2.echoed = s.echoed) :
    Stops ρ Failed' (fun s => g (f s).1 (f s).2) (fun s => g' (f' s).1 (f' s).2) :=
  h.andThenOf (fun s => hnext (f s).1) hstop

end Stops

/-! ## Actions that stop -/

/-- The trouble is a write that failed. -/
def WriteFailed (r : Except (Trouble Failure) α) : Prop :=
  ∃ f error, r = .error (.fault f) ∧ f.fault = .deviceWrite error

/-- The second action is stopped by a failed write, and does until then what the first does. -/
abbrev Act.FailStop (ρ : Device.Rationing ω ω') (act : Act σ ω α) (act' : Act σ ω' α) : Prop :=
  Stops ρ WriteFailed act.exec act'.exec

/-- What comes of an action's result, if there is one. -/
def Act.after (next : α → Act σ ω β) : Except (Trouble Failure) α → Session σ ω →
    Except (Trouble Failure) β × Session σ ω
  | .error e, s => (.error e, s)
  | .ok a, s => (next a).exec s

omit [Sink ω] in
/-- What follows an action goes by its result. -/
theorem Act.exec_bind_after (act : Act σ ω α) (next : α → Act σ ω β) (s : Session σ ω) :
    (act >>= next).exec s = after next (act.exec s).1 (act.exec s).2 := by
  rw [exec_bind]
  rcases act.exec s with ⟨e | a, t⟩ <;> rfl

namespace Act.FailStop

variable {act : Act σ ω α} {act' : Act σ ω' α}

theorem pure (a : α) : FailStop ρ (Pure.pure a : Act σ ω α) (Pure.pure a) := .still _

theorem fail (fault : Fault) : FailStop ρ (Act.fail fault : Act σ ω α) (Act.fail fault) := .still _

theorem note (m : Note) : FailStop ρ (Act.note m : Act σ ω Unit) (Act.note m) :=
  .aside (Act.note m).exec (aside_note m) (aside_note m)

/-- An action goes by an answer that another may give. -/
theorem bindOf {next : α → Act σ ω β} {next' : α → Act σ ω' β} (h : FailStop ρ act act')
    (hnext : ∀ a, act.Answers a → FailStop ρ (next a) (next' a)) :
    FailStop ρ (act >>= next) (act' >>= next') := by
  rw [FailStop, funext (exec_bind_after act next), funext (exec_bind_after act' next')]
  refine Stops.andThenOf h (fun s => ?_) ?_
  · rcases hexec : act.exec s with ⟨e | a, t⟩
    · exact .still _
    · exact hnext a ⟨s, t, hexec⟩
  · rintro r ⟨f, error, rfl, hfault⟩ s
    exact ⟨⟨f, error, rfl, hfault⟩, rfl, rfl⟩

theorem bind {next : α → Act σ ω β} {next' : α → Act σ ω' β} (h : FailStop ρ act act')
    (hnext : ∀ a, FailStop ρ (next a) (next' a)) : FailStop ρ (act >>= next) (act' >>= next') :=
  h.bindOf fun a _ => hnext a

/-- A failure may be given another position. -/
theorem relocate (h : FailStop ρ act act') (place : Failure → Failure)
    (hplace : ∀ f, (place f).fault = f.fault) :
    FailStop ρ (act.relocate place) (act'.relocate place) := by
  rw [FailStop, funext (exec_relocate place act), funext (exec_relocate place act')]
  refine Stops.andThen h (fun r => .still (r.mapError (Trouble.map place))) ?_
  rintro r ⟨f, error, rfl, hfailed⟩ s
  exact ⟨⟨place f, error, rfl, (hplace f).trans hfailed⟩, rfl, rfl⟩

/-- An action that goes by the session, whatever its device. -/
theorem get [Nonempty ω'] {next : Session σ ω → Act σ ω α} {next' : Session σ ω' → Act σ ω' α}
    (h : ∀ s s', s'.apart = s.apart → FailStop ρ (next s) (next' s')) :
    FailStop ρ (MonadState.get >>= next) (MonadState.get >>= next') := by
  refine ⟨fun s => ?_, fun {n s s'} halike => ?_⟩
  · obtain ⟨w'⟩ := ‹Nonempty ω'›
    rw [exec_bind_of_ok (exec_get s)]
    exact (h s (s.apart.onto w') rfl).grows s
  · exact (h s s' halike.apart).progress halike

/-! ## The device -/

section Device

open Device

variable (p : Profile)

theorem create (caps : Capabilities) (identity : Identity) :
    FailStop ρ (callSink (Sink.create caps identity) : Act σ ω _)
      (callSink (Sink.create caps identity)) := by
  refine ⟨fun s => ?_, fun {n s s'} halike => ?_⟩
  · exact ⟨⟨[], (ρ.written_create _ _ _).trans (List.append_nil _).symm⟩, List.suffix_rfl⟩
  · obtain ⟨hresult, hnotes, hallows⟩ := ρ.create_eq caps identity halike.allows
    refine .of_silent (ρ.written_create _ _ _) (ρ.written'_create _ _ _)
      (congrArg Except.ok hresult) ⟨?_, hallows⟩
    exact halike.apart_congr hnotes fun notes t =>
      { t with journal := notes.reverse ++ t.journal }

/-- The device is taken to be there, under the name that both sinks give it. -/
theorem nameDevice :
    FailStop ρ
      (modify fun s => { s with isOpen := true, sysname := Sink.sysname s.sink } : Act σ ω Unit)
      (modify fun s => { s with isOpen := true, sysname := Sink.sysname s.sink }) := by
  refine ⟨fun s => .of_eq rfl rfl, fun {n s s'} halike => ?_⟩
  refine .of_silent rfl rfl rfl ⟨?_, halike.allows⟩
  exact halike.apart_congr (ρ.sysname_eq halike.allows) fun sysname t =>
    { t with isOpen := true, sysname }

theorem openDevice [Host σ] [Nonempty ω'] :
    FailStop ρ (Device.openDevice p : Act σ ω Unit) (Device.openDevice p) := by
  refine get fun s s' hsame => ?_
  have hopen : s'.isOpen = s.isOpen := congrArg Session.isOpen hsame
  rw [hopen]
  split
  · exact pure _
  · refine (create _ _).bind fun result => ?_
    cases result with
    | error e => exact (note _).bind fun _ => fail _
    | ok _ =>
        refine nameDevice.bind fun _ => get fun t t' hsame' => ?_
        have hsysname : t'.sysname = t.sysname := congrArg Session.sysname hsame'
        rw [hsysname]
        exact (note _).bind fun _ => (note _).bind fun _ =>
          .aside (Act.wait _).exec (aside_wait _) (aside_wait _)

/-- A write stops if the limit is reached. -/
theorem emit (e : Event) : FailStop ρ (Device.emit e : Act σ ω Unit) (Device.emit e) := by
  refine ⟨fun s => ?_, fun {n s s'} halike => ?_⟩
  · rw [exec_emit]
    exact ⟨ρ.written_write e s.sink, List.suffix_rfl⟩
  · obtain ⟨hok, hwritten⟩ := ρ.write_ok e halike.allows
    rw [exec_emit, exec_emit, hok]
    cases n with
    | zero =>
        obtain ⟨⟨error, hfails⟩, hwritten'⟩ := ρ.write_zero e halike.allows
        rw [hfails]
        refine .stopped [e] Nat.zero_lt_one hwritten ?_ ⟨_, error, rfl, rfl⟩ ?_
        · rw [List.take_zero, List.append_nil]
          exact hwritten'
        · exact halike.view Session.echoed ▸ List.suffix_rfl
    | succ n =>
        obtain ⟨hok', hnotes, hallows, hwritten'⟩ := ρ.write_succ e halike.allows
        rw [hok']
        refine .together [e] (Nat.succ_le_succ (Nat.zero_le n)) hwritten hwritten' rfl ⟨?_, hallows⟩
        exact halike.apart_congr hnotes fun notes t =>
          { t with
            journal := notes.reverse ++ .eventEmitted e.type e.code e.value :: t.journal }

theorem emitAll (events : List Event) :
    FailStop ρ (Device.emitAll events : Act σ ω Unit) (Device.emitAll events) := by
  induction events with
  | nil => exact pure _
  | cons e events ih => exact (emit e).bind fun _ => ih

theorem deliver [Host σ] [Nonempty ω'] (events : List Event) :
    FailStop ρ (Device.deliver p events : Act σ ω Unit) (Device.deliver p events) :=
  (openDevice p).bind fun _ => emitAll events

end Device

end Act.FailStop

/-- What is made in the same way on both sinks stops if a write fails. -/
theorem Act.Parallel.failStop [Host σ] [Nonempty ω'] {p : Profile} {act : Act σ ω α}
    {act' : Act σ ω' α} (h : Parallel p act act') : FailStop ρ act act' := by
  induction h with
  | aside base h h' => exact .aside base.exec h h'
  | bind _ _ ih ihnext => exact ih.bindOf ihnext
  | get _ ih => exact .get fun s s' hsame => ih s s' (congrArg Session.bare hsame)
  | relocate place hplace _ ih => exact ih.relocate place hplace
  | openDevice => exact .openDevice _
  | deliver _ => exact .deliver _ _

end InputScript
