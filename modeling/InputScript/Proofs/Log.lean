import InputScript.Proofs.Simulation

/-!
# Logged sinks

What a run does to the device is seen in the calls that its sink gets.  A sink is logged by a sink
around it that passes every call on and keeps it with what came of it (`Logged`).  The log changes
nothing: a run on the logged sink comes to the same as the run on the sink itself (`run_logged`), so
the calls of a run on any sink can be read off the run that is logged (`Task.calls`).

## Main results

* `Device.log_deliver` — a portion is written as a whole, unless a write fails.
* `lockstep_unlogged` — a logged sink answers as the sink inside.
* `Task.run_logged` — a run is the same with and without the log.
-/

namespace InputScript

open Device (Sink Event)

namespace Device

/-- A call on a sink, with what came of it. -/
inductive Entry
  | create (result : Except SystemError Unit)
  | write (e : Event) (result : Except SystemError Unit)
  | destroy (result : Except SystemError Unit)

namespace Entry

/-- A device was made. -/
def isCreation : Entry → Bool
  | .create (.ok _) => true
  | _ => false

/-- A device was destroyed, or at least the sink was told to. -/
def isDestruction : Entry → Bool
  | .destroy _ => true
  | _ => false

def isFailedWrite : Entry → Bool
  | .write _ (.error _) => true
  | _ => false

/-- The event that was written. -/
def event? : Entry → Option Event
  | .write e (.ok _) => some e
  | _ => none

end Entry

/-- How many devices were made by calls. -/
def created (log : List Entry) : Nat := log.countP Entry.isCreation

/-- How often a device was destroyed by calls. -/
def destroyed (log : List Entry) : Nat := log.countP Entry.isDestruction

/-- The events that were written by calls, in order. -/
def written (log : List Entry) : List Event := log.filterMap Entry.event?

theorem created_concat (log : List Entry) (entry : Entry) :
    created (log ++ [entry]) = created log + entry.isCreation.toNat := by
  cases h : entry.isCreation <;> simp [created, h]

theorem destroyed_concat (log : List Entry) (entry : Entry) :
    destroyed (log ++ [entry]) = destroyed log + entry.isDestruction.toNat := by
  cases h : entry.isDestruction <;> simp [destroyed, h]

/-- A sink and the calls that it got, in order. -/
structure Logged (ω : Type) where
  inner : ω
  log : List Entry := []

variable {ω : Type} [Sink ω]

/-- Passes a reply on and logs the call. -/
def Logged.reply (l : Logged ω) (r : Reply ω) (entry : Except SystemError Unit → Entry) :
    Reply (Logged ω) :=
  { result := r.result
    sink := { inner := r.sink, log := l.log ++ [entry r.result] }
    notes := r.notes }

instance : Sink (Logged ω) where
  create caps identity l := l.reply (Sink.create caps identity l.inner) .create
  write e l := l.reply (Sink.write e l.inner) (.write e)
  destroy l := l.reply (Sink.destroy l.inner) .destroy
  sysname l := Sink.sysname l.inner

theorem log_asked (p : Profile) (l : Logged ω) :
    (asked p l).sink.log = l.log ++ [.create (asked p l).result] := rfl

theorem log_write (e : Event) (l : Logged ω) :
    (Sink.write e l).sink.log = l.log ++ [.write e (Sink.write e l).result] := rfl

theorem log_destroy (l : Logged ω) :
    (Sink.destroy l).sink.log = l.log ++ [.destroy (Sink.destroy l).result] := rfl

/-! ## What is written -/

/-- No write failed. -/
def WritesSucceed (log : List Entry) : Prop := ∀ entry ∈ log, entry.isFailedWrite = false

instance (log : List Entry) : Decidable (WritesSucceed log) :=
  inferInstanceAs (Decidable (∀ entry ∈ log, _))

theorem written_append (log more : List Entry) :
    written (log ++ more) = written log ++ written more := List.filterMap_append

theorem writesSucceed_append {log more : List Entry} :
    WritesSucceed (log ++ more) ↔ WritesSucceed log ∧ WritesSucceed more := List.forall_mem_append

section

variable {σ : Type}

/-- A device is opened by asking for it, if anything is asked of the sink. -/
theorem log_openDevice [Host σ] (p : Profile) (s : Session σ (Logged ω)) :
    ∃ more, ((openDevice p).exec s).2.sink.log = s.sink.log ++ more ∧
      ∀ entry ∈ more, ∃ result, entry = .create result := by
  rcases exec_openDevice_cases p s with ⟨-, hexec⟩ | ⟨-, e, -, hexec⟩ | ⟨-, -, hexec⟩
  · rw [hexec]
    exact ⟨[], (List.append_nil _).symm, List.forall_mem_nil _⟩
  · rw [hexec]
    exact ⟨[.create _], log_asked p s.sink, List.forall_mem_singleton.mpr ⟨_, rfl⟩⟩
  · rw [hexec, Act.exec_wait]
    exact ⟨[.create _], log_asked p s.sink, List.forall_mem_singleton.mpr ⟨_, rfl⟩⟩

omit [Sink ω] in
theorem written_of_creations {log : List Entry} (h : ∀ entry ∈ log, ∃ result, entry = .create result) :
    written log = [] := by
  refine List.filterMap_eq_nil_iff.mpr fun entry hentry => ?_
  obtain ⟨result, rfl⟩ := h entry hentry
  rfl

/-- Events are written in order, up to a write that fails, and then it is that write that failed. -/
theorem log_emitAll (events : List Event) (s : Session σ (Logged ω)) :
    (((emitAll events).exec s).1 = .ok () ∧
      ((emitAll events).exec s).2.sink.log = s.sink.log ++ events.map (.write · (.ok ()))) ∨
    ∃ before e error after, events = before ++ e :: after ∧
      ((emitAll events).exec s).1 = .error (.fault { fault := .deviceWrite error }) ∧
      ((emitAll events).exec s).2.sink.log =
        s.sink.log ++ (before.map (.write · (.ok ())) ++ [.write e (.error error)]) := by
  induction events generalizing s with
  | nil => exact .inl ⟨rfl, (List.append_nil _).symm⟩
  | cons e events ih =>
      have hlog : (s.wrote e).sink.log = s.sink.log ++ [.write e (Sink.write e s.sink).result] :=
        log_write e s.sink
      rw [emitAll, Act.exec_bind, exec_emit]
      rcases hresult : (Sink.write e s.sink).result with error | _ <;> rw [hresult] at hlog
      · exact .inr ⟨[], e, error, events, rfl, rfl, hlog⟩
      · rcases ih (s.wrote e) with ⟨hok, hmore⟩ | ⟨before, e', error, after, rfl, hfailed, hmore⟩
        · refine .inl ⟨hok, hmore.trans ?_⟩
          rw [hlog, List.append_assoc]
          rfl
        · refine .inr ⟨e :: before, e', error, after, rfl, hfailed, hmore.trans ?_⟩
          rw [hlog, List.append_assoc]
          rfl

theorem written_map_write (events : List Event) :
    written (events.map (.write · (.ok ()))) = events := by
  induction events with
  | nil => rfl
  | cons e events ih => exact congrArg (e :: ·) ih

/-- The calls that come of a portion of events, and of the result. -/
structure Delivered (events : List Event) (result : Except (Trouble Failure) Unit)
    (calls : List Entry) : Prop where
  /-- The sink is given no other events. -/
  mem : ∀ {e result}, .write e result ∈ calls → e ∈ events
  /-- A portion that is answered for was written. -/
  answered : result = .ok () → written calls = events
  /-- It is written as a whole, or not at all if there is no device, unless a write fails. -/
  whole : WritesSucceed calls → written calls = [] ∨ written calls = events

theorem log_deliver [Host σ] (p : Profile) (events : List Event) (s : Session σ (Logged ω)) :
    ∃ more, ((deliver p events).exec s).2.sink.log = s.sink.log ++ more ∧
      Delivered events ((deliver p events).exec s).1 more := by
  obtain ⟨opening, hopening, hcreations⟩ := log_openDevice p s
  have hnone := written_of_creations hcreations
  have hno : ∀ {e result}, .write e result ∉ opening := by
    intro e result hmem
    obtain ⟨_, hcreate⟩ := hcreations _ hmem
    cases hcreate
  rw [deliver, Act.exec_bind]
  rcases hexec : (openDevice p).exec s with ⟨e | _, s'⟩ <;> rw [hexec] at hopening
  · exact ⟨opening, hopening, fun hmem => absurd hmem hno, nofun, fun _ => .inl hnone⟩
  · dsimp only at hopening ⊢
    rcases log_emitAll events s' with
      ⟨-, hmore⟩ | ⟨before, e, error, after, rfl, hfailed, hmore⟩ <;>
      rw [hopening, List.append_assoc] at hmore
    · have hwritten : written (opening ++ events.map (.write · (.ok ()))) = events := by
        rw [written_append, hnone, written_map_write, List.nil_append]
      refine ⟨_, hmore, fun hmem => ?_, fun _ => hwritten, fun _ => .inr hwritten⟩
      rcases List.mem_append.mp hmem with hmem | hmem
      · exact absurd hmem hno
      · obtain ⟨e, he, heq⟩ := List.mem_map.mp hmem
        cases heq
        exact he
    · refine ⟨_, hmore, fun hmem => ?_, fun hok => ?_, fun hsucceed => ?_⟩
      · simp only [List.mem_append, List.mem_map, Entry.write.injEq, List.mem_singleton] at hmem
        rcases hmem with hmem | ⟨_, he, rfl, -⟩ | ⟨rfl, -⟩
        · exact absurd hmem hno
        · exact List.mem_append_left _ he
        · exact List.mem_append_right _ List.mem_cons_self
      · rw [hfailed] at hok
        cases hok
      · exact nomatch hsucceed (.write e (.error error)) (by simp)

end

end Device

open Device (Logged Entry)

variable {σ ω : Type}

/-! ## Sessions and runners with a log -/

/-- The session, with a log that begins now. -/
def Session.logged (s : Session σ ω) : Session σ (Logged ω) := { s with sink := { inner := s.sink } }

/-- The session without the log. -/
def Session.unlogged (s : Session σ (Logged ω)) : Session σ ω := { s with sink := s.sink.inner }

/-- The runner, with a log that begins now. -/
def Runner.logged (r : Runner σ ω) : Runner σ (Logged ω) := { r with session := r.session.logged }

/-- The runner without the log. -/
def Runner.unlogged (r : Runner σ (Logged ω)) : Runner σ ω := { r with session := r.session.unlogged }

variable [Sink ω]

/-- A logged sink answers as the sink inside. -/
theorem lockstep_unlogged (p : Profile) :
    Lockstep p fun (s : Session σ ω) (s' : Session σ (Logged ω)) => s'.unlogged = s where
  bare := by
    rintro _ s rfl
    rfl
  after := by
    rintro _ s rfl t
    rfl
  isOpen := by
    rintro _ s rfl
    rfl
  asked := by
    rintro _ s rfl _
    rfl
  refused := by
    rintro _ s e rfl _ _
    rfl
  created := by
    rintro _ s rfl _ _
    rfl
  written := by
    rintro _ s rfl _ e
    rfl
  wrote := by
    rintro _ s rfl _ e
    rfl

namespace Task

variable [Host σ]

/-- A run is the same with and without the log. -/
theorem run_logged (task : Task) (fuel : Nat) (r : Runner σ (Logged ω)) :
    (task.run fuel r).1 = (task.run fuel r.unlogged).1 ∧
      (task.run fuel r).2.unlogged = (task.run fuel r.unlogged).2 := by
  obtain ⟨hresult, hsession⟩ := agrees_task (lockstep_unlogged r.settings.device).simulation task fuel
    r.unlogged r rfl rfl rfl
  refine ⟨hresult, ?_⟩
  rw [task.runner_run fuel r, task.runner_run fuel r.unlogged, ← hsession]
  rfl

/-- The calls of a task on the sink of a runner. -/
def calls (task : Task) (fuel : Nat) (r : Runner σ ω) : List Entry :=
  (task.run fuel r.logged).2.session.sink.log

end Task

end InputScript
