import InputScript.Device.Handle
import InputScript.Proofs.Action

/-!
# The device handle, call by call

The handle calls its sink in three ways.  For each there is here the session that the call leaves,
and with it the equation of the action: opening asks for the device and waits if it was made, an event
is written, and closing destroys the device whatever the sink says to that.
-/

namespace InputScript

open Device (Sink Event Reply)

variable {σ ω : Type} [Sink ω]

/-- The reply of a sink that is asked for the device of a profile. -/
def Device.asked (p : Profile) (w : ω) : Reply ω := Sink.create (.ofProfile p) (.ofProfile p) w

namespace Session

/-- The session after the sink made the device, which is still to settle. -/
def created (p : Profile) (s : Session σ ω) : Session σ ω :=
  { s with
    sink := (Device.asked p s.sink).sink
    isOpen := true
    sysname := Sink.sysname (Device.asked p s.sink).sink
    journal := .deviceSettling p.settleTime ::
      .deviceOpened p.path (Sink.sysname (Device.asked p s.sink).sink) p.traits ::
        ((Device.asked p s.sink).notes.reverse ++ s.journal) }

/-- The session after the sink refused to make the device. -/
def refused (p : Profile) (e : SystemError) (s : Session σ ω) : Session σ ω :=
  { s with
    sink := (Device.asked p s.sink).sink
    journal := .deviceSetupFailed p.path e.toText ::
      ((Device.asked p s.sink).notes.reverse ++ s.journal) }

/-- The session after the sink was given an event. -/
def wrote (e : Event) (s : Session σ ω) : Session σ ω :=
  { s with
    sink := (Sink.write e s.sink).sink
    journal := (Sink.write e s.sink).notes.reverse ++
      .eventEmitted e.type e.code e.value :: s.journal }

/-- The session after the device was destroyed. -/
def destroyed (s : Session σ ω) : Session σ ω :=
  { s with
    sink := (Sink.destroy s.sink).sink
    isOpen := false
    journal := (match (Sink.destroy s.sink).result with
      | .error e => .deviceCloseFailed e.toText
      | .ok () => .deviceClosed s.sysname) :: ((Sink.destroy s.sink).notes.reverse ++ s.journal) }

end Session

namespace Device

omit [Sink ω] in
theorem exec_callSink (call : ω → Reply ω) (s : Session σ ω) :
    (callSink call : Act σ ω _).exec s =
      (.ok (call s.sink).result,
        { s with
          sink := (call s.sink).sink
          journal := (call s.sink).notes.reverse ++ s.journal }) := rfl

/-! ## Opening -/

section Opening

variable [Host σ] {p : Profile} {s : Session σ ω}

theorem exec_openDevice_of_open (hopen : s.isOpen = true) :
    (openDevice p).exec s = (.ok (), s) := by
  rw [openDevice, Act.exec_bind_of_ok (Act.exec_get s), hopen, if_pos rfl]
  rfl

theorem exec_openDevice_of_refused {e : SystemError} (hopen : s.isOpen = false)
    (h : (asked p s.sink).result = .error e) :
    (openDevice p).exec s = (.error (.fault { fault := .deviceSetup p.path e }), s.refused p e) := by
  unfold asked at h
  rw [openDevice, Act.exec_bind_of_ok (Act.exec_get s), hopen, if_neg Bool.false_ne_true,
    Act.exec_bind_of_ok (exec_callSink _ s), h]
  rfl

theorem exec_openDevice_of_created (hopen : s.isOpen = false)
    (h : (asked p s.sink).result = .ok ()) :
    (openDevice p).exec s = (Act.wait p.settleTime).exec (s.created p) := by
  unfold asked at h
  rw [openDevice, Act.exec_bind_of_ok (Act.exec_get s), hopen, if_neg Bool.false_ne_true,
    Act.exec_bind_of_ok (exec_callSink _ s), h]
  rfl

/-- What became of a device that was to be opened: it was there, it was refused, or it was made and
given time to settle. -/
theorem exec_openDevice_cases (p : Profile) (s : Session σ ω) :
    (s.isOpen = true ∧ (openDevice p).exec s = (.ok (), s)) ∨
      (s.isOpen = false ∧ ∃ e, (asked p s.sink).result = .error e ∧ (openDevice p).exec s =
        (.error (.fault { fault := .deviceSetup p.path e }), s.refused p e)) ∨
      (s.isOpen = false ∧ (asked p s.sink).result = .ok () ∧
        (openDevice p).exec s = (Act.wait p.settleTime).exec (s.created p)) := by
  cases hopen : s.isOpen with
  | true => exact .inl ⟨rfl, exec_openDevice_of_open hopen⟩
  | false =>
      cases hresult : (asked p s.sink).result with
      | error e => exact .inr (.inl ⟨rfl, e, rfl, exec_openDevice_of_refused hopen hresult⟩)
      | ok _ => exact .inr (.inr ⟨rfl, rfl, exec_openDevice_of_created hopen hresult⟩)

/-- A device that was opened is there. -/
theorem isOpen_of_openDevice {s' : Session σ ω} (h : (openDevice p).exec s = (.ok (), s')) :
    s'.isOpen = true := by
  rcases exec_openDevice_cases p s with ⟨hopen, hexec⟩ | ⟨-, e, -, hexec⟩ | ⟨-, -, hexec⟩
  · cases hexec.symm.trans h
    exact hopen
  · cases hexec.symm.trans h
  · rw [Act.exec_wait] at hexec
    cases (Prod.mk.inj (hexec.symm.trans h)).2
    rfl

end Opening

/-! ## Writing and closing -/

theorem exec_emit (e : Event) (s : Session σ ω) :
    (emit e : Act σ ω Unit).exec s =
      ((Sink.write e s.sink).result.mapError fun error => .fault { fault := .deviceWrite error },
        s.wrote e) := by
  have hcall : (callSink (Sink.write e) : Act σ ω _).exec
      { s with journal := .eventEmitted e.type e.code e.value :: s.journal } =
      (.ok (Sink.write e s.sink).result, s.wrote e) := rfl
  rw [emit, Act.exec_bind_of_ok (Act.exec_note _ _), Act.exec_bind_of_ok hcall]
  rcases (Sink.write e s.sink).result with error | _ <;> rfl

theorem exec_closeDevice_of_open {s : Session σ ω} (hopen : s.isOpen = true) :
    (closeDevice : Act σ ω Unit).exec s = (.ok (), s.destroyed) := by
  rw [closeDevice, Act.exec_bind_of_ok (Act.exec_get s), hopen, if_pos rfl,
    Act.exec_bind_of_ok (Act.exec_modify _ s), Act.exec_bind_of_ok (exec_callSink _ _)]
  unfold Session.destroyed
  dsimp only
  rcases (Sink.destroy s.sink).result with e | _ <;> rfl

theorem exec_closeDevice_of_closed {s : Session σ ω} (hopen : s.isOpen = false) :
    (closeDevice : Act σ ω Unit).exec s = (.ok (), s) := by
  rw [closeDevice, Act.exec_bind_of_ok (Act.exec_get s), hopen, if_neg Bool.false_ne_true]
  rfl

end Device

end InputScript
