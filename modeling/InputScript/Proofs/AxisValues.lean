import InputScript.Proofs.Log
import InputScript.Proofs.Rounding
import InputScript.Proofs.Validation

/-!
# Relative values fit

An event has room for a value of thirty-two bits.  A relative motion is asked for as a binary64
number, which may be larger than that, infinite, or no number at all; and a wheel reports the motion a
second time, in units that are finer by a factor of 120.  All values of a motion are compared with the
bounds before they are cut to integers and before the device is touched.  So either nothing is done, or
what is written fits (`value_between`).

Whole deltas are multiplied exactly as long as they may fit, so for them the bound on a wheel is a whole
number, and the same in both directions (`fits_iff_of_wheel`).

## Main results

* `Device.rangeRefused_relative_iff` — a motion is refused exactly if one of its values does not fit.
* `Device.relative_values_fit` — the values of all relative events that are emitted fit.
-/

namespace InputScript

open Device (Sink Event Logged Entry)

variable {σ ω α : Type}

/-- A result that is reported as a range error. -/
def RangeRefused (result : Except (Trouble Failure) α) : Prop :=
  ∃ f, result = .error (.fault f) ∧ f.report.kind = .range

variable [Sink ω]

/-- The calls of an action on the sink of a session. -/
def Act.calls (act : Act σ (Logged ω) α) (s : Session σ ω) : List Entry :=
  (act.exec s.logged).2.sink.log

namespace Device

/-! ## Delivery -/

section Delivery

/-- Writing fails with an error of the sink. -/
theorem fault_of_emitAll {events : List Event} {s s' : Session σ ω} {f : Failure}
    (h : (emitAll events).exec s = (.error (.fault f), s')) :
    ∃ error, f.fault = .deviceWrite error := by
  induction events generalizing s with
  | nil => cases h
  | cons e events ih =>
      rcases Act.exec_bind_eq_error.mp h with hfirst | ⟨⟨⟩, s₁, -, hrest⟩
      · rw [exec_emit] at hfirst
        obtain ⟨hresult, -⟩ := Prod.mk.inj hfirst
        cases hwrite : (Sink.write e s.sink).result with
        | error error =>
            rw [hwrite] at hresult
            cases hresult
            exact ⟨error, rfl⟩
        | ok _ =>
            rw [hwrite] at hresult
            cases hresult
      · exact ih hrest

variable [Host σ]

/-- Opening fails because the sink makes no device. -/
theorem fault_of_openDevice {p : Profile} {s s' : Session σ ω} {f : Failure}
    (h : (openDevice p).exec s = (.error (.fault f), s')) :
    ∃ error, f.fault = .deviceSetup p.path error := by
  rcases exec_openDevice_cases p s with ⟨-, hexec⟩ | ⟨-, e, -, hexec⟩ | ⟨-, -, hexec⟩
  · cases hexec.symm.trans h
  · cases hexec.symm.trans h
    exact ⟨e, rfl⟩
  · rw [Act.exec_wait] at hexec
    obtain ⟨hresult, -⟩ := Prod.mk.inj (hexec.symm.trans h)
    split at hresult <;> cases hresult

/-- A portion that cannot be delivered is no range error. -/
theorem not_rangeRefused_deliver (p : Profile) (events : List Event) (s : Session σ ω) :
    ¬ RangeRefused ((deliver p events).exec s).1 := by
  rintro ⟨⟨fault, source, line⟩, hfailed, hkind⟩
  rcases Act.exec_bind_eq_error.mp (Prod.ext hfailed rfl) with hopening | ⟨⟨⟩, s₁, -, hwriting⟩
  · obtain ⟨error, rfl⟩ := fault_of_openDevice hopening
    cases hkind
  · obtain ⟨error, rfl⟩ := fault_of_emitAll hwriting
    cases hkind

/-- What comes of a portion, and the calls that it takes. -/
theorem delivered_calls (p : Profile) (events : List Event) (s : Session σ ω) :
    Delivered events ((deliver p events).exec s).1 ((deliver p events).calls s) := by
  obtain ⟨more, hlog, hdelivered⟩ := log_deliver p events s.logged
  have hsame : ((deliver p events).exec s.logged).1 = ((deliver p events).exec s).1 :=
    ((lockstep_unlogged p).agrees_deliver events (show s.logged.unlogged = s from rfl)).1
  rw [hsame] at hdelivered
  have hcalls : (deliver p events).calls s = more := hlog
  rwa [hcalls]

end Delivery

/-! ## The values of a motion -/

/-- Every value of the motion is in the 32-bit range. -/
def Fits (axis : Int) (delta : Binary64) : Prop :=
  ∀ value ∈ relativeValues axis delta, Argument.fitsInt32 value.2 = true

/-- The events of a motion. -/
def motion (axis : Int) (delta : Binary64) : List Event :=
  (relativeValues axis delta).map fun value => .relative value.1 (wholeValue value.2)

section Motion

variable {axis : Int} {delta : Binary64} {n : Int}

theorem value_between (h : Fits axis delta) {e : Event} (he : e ∈ motion axis delta) :
    Argument.int32Min ≤ e.value ∧ e.value ≤ Argument.int32Max := by
  obtain ⟨⟨code, x⟩, hvalue, rfl⟩ := List.mem_map.mp he
  obtain ⟨q, hq, hlow, hhigh⟩ := Argument.bounds_of_fitsInt32 (h _ hvalue)
  obtain ⟨n, hn, hbounds⟩ := Binary64.truncate_between hq hlow hhigh
  have hwhole : wholeValue x = n := by rw [wholeValue, hn]
  exact hwhole ▸ hbounds

/-- A motion is reported on its axis, and by a wheel on the companion of the axis. -/
theorem exists_motion_eq (axis : Int) (delta : Binary64) :
    ∃ value fine, motion axis delta =
      .relative axis value :: (companion? axis).toList.map fun (code : Nat) => .relative code fine := by
  unfold motion relativeValues
  cases companion? axis with
  | none => exact ⟨wholeValue delta, 0, rfl⟩
  | some fine => exact ⟨wholeValue delta, wholeValue (delta * .ofNat fineUnits), rfl⟩

theorem fits_iff_of_plain (hplain : companion? axis = none) (hn : delta.toRat? = some (n : Rat)) :
    Fits axis delta ↔ Argument.int32Min ≤ n ∧ n ≤ Argument.int32Max := by
  have hvalues : relativeValues axis delta = [(axis, delta)] := by rw [relativeValues, hplain]
  rw [Fits, hvalues, List.forall_mem_singleton, Argument.fitsInt32_iff hn]
  norm_cast

/-- The bound on a wheel is the largest delta whose fine units fit. -/
theorem fits_iff_of_wheel {fine : Nat} (hwheel : companion? axis = some fine)
    (hn : delta.toRat? = some (n : Rat)) : Fits axis delta ↔ |n| ≤ 17895697 := by
  have hvalues : relativeValues axis delta =
      [(axis, delta), ((fine : Int), delta * .ofNat fineUnits)] := by
    rw [relativeValues, hwheel]
  rw [Fits, hvalues, List.forall_mem_cons, List.forall_mem_singleton, Argument.fitsInt32_iff hn]
  norm_cast
  unfold Argument.int32Min Argument.int32Max
  rw [abs_le]
  constructor
  · rintro ⟨hdelta, hfine⟩
    have hsmall : |n * (fineUnits : Int)| < 2 ^ 53 := by
      unfold fineUnits
      rw [abs_lt]
      omega
    have hbounds := (Argument.fitsInt32_iff (Binary64.toRat?_mul_ofNat hn hsmall)).mp hfine
    norm_cast at hbounds
    unfold Argument.int32Min Argument.int32Max fineUnits at hbounds
    omega
  · intro hdelta
    have hsmall : |n * (fineUnits : Int)| < 2 ^ 53 := by
      unfold fineUnits
      rw [abs_lt]
      omega
    refine ⟨by omega, (Argument.fitsInt32_iff (Binary64.toRat?_mul_ofNat hn hsmall)).mpr ?_⟩
    norm_cast
    unfold Argument.int32Min Argument.int32Max fineUnits
    omega

/-- The axes that have a companion are the wheels. -/
theorem companion?_eq_none_iff :
    companion? axis = none ↔ ¬ (axis = wheelAxis ∨ axis = horizontalWheelAxis) := by
  unfold companion? fineAxis? wheelAxis horizontalWheelAxis
  cases axis <;> grind

end Motion

/-! ## Motions -/

section Relative

variable [Host σ] (p : Profile) {axis : Int} {delta : Binary64} (sync : Bool) (verb : Option String)
  (s : Session σ ω)

theorem exec_relative_of_fits (h : Fits axis delta) :
    (relative p axis delta sync verb).exec s =
      (deliver p (framed (motion axis delta) sync)).exec s := by
  have hevents : relativeEvents axis delta verb = .ok (motion axis delta) :=
    if_pos (List.all_eq_true.mpr h)
  rw [relative, hevents]
  exact Act.exec_bind_of_ok rfl

theorem exec_relative_of_not_fits (h : ¬ Fits axis delta) :
    (relative p axis delta sync verb).exec s =
      (.error (.fault { fault := .axisRange verb delta }), s) := by
  have hevents : relativeEvents axis delta verb = .error (.axisRange verb delta) :=
    if_neg fun hall => h (List.all_eq_true.mp hall)
  rw [relative, hevents]
  exact Act.exec_bind_of_error rfl

/-- A motion is refused exactly if one of its values does not fit. -/
theorem rangeRefused_relative_iff :
    RangeRefused ((relative p axis delta sync verb).exec s).1 ↔ ¬ Fits axis delta := by
  by_cases h : Fits axis delta
  · rw [exec_relative_of_fits p sync verb s h]
    exact iff_of_false (not_rangeRefused_deliver p _ s) (not_not_intro h)
  · rw [exec_relative_of_not_fits p sync verb s h]
    exact iff_of_true ⟨_, rfl, rfl⟩ h

end Relative

/-- **Relative values always fit.**  Take any axis, any delta (infinities and what is no number
included) and any session.  Either the motion is refused with a range error, the session is left as it
was and the sink gets no call; or it is no range error, and every relative event that the sink is given,
on the axis itself or on the companion of a wheel, has a value of thirty-two bits.  If the motion then
succeeds, these events were written.

A whole delta is refused on a wheel exactly if it is beyond 17895697 in either direction, and on any
other axis exactly if it is no 32-bit integer itself. -/
theorem relative_values_fit [Host σ] (p : Profile) (axis : Int) (delta : Binary64) (sync : Bool)
    (verb : Option String) (s : Session σ ω) :
    (RangeRefused ((relative p axis delta sync verb).exec s).1 ∧
        ((relative p axis delta sync verb).exec s).2 = s ∧
        (relative p axis delta sync verb).calls s = [] ∨
      ¬ RangeRefused ((relative p axis delta sync verb).exec s).1 ∧
        (∀ (e : Event) (result : Except SystemError Unit),
          .write e result ∈ (relative p axis delta sync verb).calls s →
          e.type = EventType.relative.code → -2 ^ 31 ≤ e.value ∧ e.value ≤ 2 ^ 31 - 1) ∧
        (((relative p axis delta sync verb).exec s).1 = .ok () →
          ∃ value fine, written ((relative p axis delta sync verb).calls s) =
            framed (.relative axis value ::
              (companion? axis).toList.map fun (code : Nat) => .relative code fine) sync)) ∧
      ∀ n : Int, delta.toRat? = some (n : Rat) →
        (axis = wheelAxis ∨ axis = horizontalWheelAxis →
          (RangeRefused ((relative p axis delta sync verb).exec s).1 ↔ 17895697 < |n|)) ∧
        (¬ (axis = wheelAxis ∨ axis = horizontalWheelAxis) →
          (RangeRefused ((relative p axis delta sync verb).exec s).1 ↔
            n < -2 ^ 31 ∨ 2 ^ 31 - 1 < n)) := by
  refine ⟨?_, fun n hn => ⟨fun hwheel => ?_, fun hplain => ?_⟩⟩
  · by_cases h : Fits axis delta
    · refine .inr ⟨fun hrefused => (rangeRefused_relative_iff p sync verb s).mp hrefused h, ?_⟩
      have hcalls : (relative p axis delta sync verb).calls s =
          (deliver p (framed (motion axis delta) sync)).calls s :=
        congrArg (·.2.sink.log) (exec_relative_of_fits p sync verb s.logged h)
      have hdelivered := delivered_calls p (framed (motion axis delta) sync) s
      rw [hcalls, exec_relative_of_fits p sync verb s h]
      refine ⟨fun e result hcall htype => ?_, fun hok => ?_⟩
      · have hmotion : e ∈ motion axis delta := by
          have he := hdelivered.mem hcall
          unfold framed at he
          split at he
          · rcases List.mem_append.mp he with he | he
            · exact he
            · rw [List.mem_singleton.mp he] at htype
              cases htype
          · exact he
        exact value_between h hmotion
      · obtain ⟨value, fine, hmotion⟩ := exists_motion_eq axis delta
        exact ⟨value, fine, hmotion ▸ hdelivered.answered hok⟩
    · refine .inl ⟨(rangeRefused_relative_iff p sync verb s).mpr h, ?_, ?_⟩
      · rw [exec_relative_of_not_fits p sync verb s h]
      · exact congrArg (·.2.sink.log) (exec_relative_of_not_fits p sync verb s.logged h)
  · obtain ⟨fine, hfine⟩ : ∃ fine, companion? axis = some fine :=
      Option.ne_none_iff_exists'.mp fun hnone => companion?_eq_none_iff.mp hnone hwheel
    rw [rangeRefused_relative_iff, fits_iff_of_wheel hfine hn, not_le]
  · rw [rangeRefused_relative_iff, fits_iff_of_plain (companion?_eq_none_iff.mpr hplain) hn]
    unfold Argument.int32Min Argument.int32Max
    omega

/-- The largest delta of a wheel, the first beyond it in the other direction, and on a plain axis a delta
that no wheel takes. -/
theorem relative_values_fit_atBounds :
    (¬ RangeRefused ((relative {} 8 17895697).exec Machine.idle).1 ∧
      written ((relative {} 8 17895697).calls Machine.idle) =
        [.relative 8 17895697, .relative 11 2147483640] ∧
      ∀ (e : Event) (result : Except SystemError Unit),
        .write e result ∈ (relative {} 8 17895697).calls Machine.idle →
          e.type = EventType.relative.code → -2 ^ 31 ≤ e.value ∧ e.value ≤ 2 ^ 31 - 1) ∧
    RangeRefused ((relative {} 6 (-17895698)).exec Machine.idle).1 ∧
    ¬ RangeRefused ((relative {} 0 (-17895698)).exec Machine.idle).1 := by
  obtain ⟨hvertical, hwheel⟩ := relative_values_fit {} 8 17895697 false none Machine.idle
  obtain ⟨-, hhorizontal⟩ := relative_values_fit {} 6 (-17895698) false none Machine.idle
  obtain ⟨-, hplain⟩ := relative_values_fit {} 0 (-17895698) false none Machine.idle
  have htaken : ¬ RangeRefused ((relative {} 8 17895697).exec Machine.idle).1 :=
    fun hrefused => absurd (((hwheel 17895697 rfl).1 (.inl rfl)).mp hrefused) (by decide)
  refine ⟨⟨htaken, by decide +kernel, ?_⟩, ?_, ?_⟩
  · exact (hvertical.resolve_left fun hrefused => htaken hrefused.1).2.1
  · exact ((hhorizontal (-17895698) rfl).1 (.inr rfl)).mpr (by decide)
  · exact fun hrefused =>
      absurd (((hplain (-17895698) rfl).2 (by decide)).mp hrefused) (by decide)

end Device

end InputScript
