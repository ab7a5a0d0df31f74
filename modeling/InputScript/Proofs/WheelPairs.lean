import InputScript.Proofs.Log
import InputScript.Proofs.Rounding

/-!
# Wheels report in two units

A wheel reports its motion twice: in whole units on its own axis, and right after that in fine units
on the companion of the axis.  Consumers take the one or the other, and go wrong if the two do not
come together.  What a run writes is put together from many portions, by different commands, in
loops and in scripts that are called; but each wheel event comes with its companion in one portion,
and no command can name a companion axis by itself.

## Main results

* `Device.Portion.paired` — what is delivered at once is paired.
* `wheel_events_are_paired` — so is everything that a run writes.
-/

namespace InputScript

open Device (Sink Event Logged Entry)

namespace Device

/-! ## Pairs -/

/-- The event reports on a relative axis. -/
def Event.IsOn (e : Event) (axis : Nat) : Prop := e.type = EventType.relative.code ∧ e.code = axis

instance (e : Event) (axis : Nat) : Decidable (e.IsOn axis) := inferInstanceAs (Decidable (_ ∧ _))

/-- Two events that report one motion of a wheel: the integer part of the delta, and that of the same
delta in fine units.  Of a whole delta the second is an exact multiple of the first. -/
def WheelPair (axis fine : Nat) (e f : Event) : Prop :=
  ∃ (delta : Binary64) (v w : Int), delta.truncate = .ok v ∧
    (delta * .ofNat fineUnits).truncate = .ok w ∧ e = .relative axis v ∧ f = .relative fine w ∧
    ∀ n : Int, delta.toRat? = some (n : Rat) → w = v * fineUnits

/-- The axes of the wheels, each with the one on which the wheel reports in fine units. -/
def wheels : List (Nat × Nat) := [(8, 11), (6, 12)]

/-- Wheel events and their followers come in pairs, among events on other axes. -/
inductive Paired : List Event → Prop
  | nil : Paired []
  | cons {e : Event} {events : List Event}
      (hother : ∀ axis fine, (axis, fine) ∈ wheels → ¬ e.IsOn axis ∧ ¬ e.IsOn fine)
      (h : Paired events) : Paired (e :: events)
  | pair {axis fine : Nat} {e f : Event} {events : List Event} (haxis : (axis, fine) ∈ wheels)
      (hpair : WheelPair axis fine e f) (h : Paired events) : Paired (e :: f :: events)

/-- The wheels are the axes that have a companion. -/
theorem mem_wheels {axis fine : Nat} : (axis, fine) ∈ wheels ↔ fineAxis? axis = some fine := by
  unfold wheels fineAxis? wheelAxis horizontalWheelAxis
  grind

/-- Each wheel has its own companion, and no companion is a wheel. -/
theorem wheels_apart {axis fine axis' fine' : Nat} (h : (axis, fine) ∈ wheels)
    (h' : (axis', fine') ∈ wheels) : (axis = axis' ↔ fine = fine') ∧ axis ≠ fine' := by
  have hall : ∀ wheel ∈ wheels, ∀ wheel' ∈ wheels,
      (wheel.1 = wheel'.1 ↔ wheel.2 = wheel'.2) ∧ wheel.1 ≠ wheel'.2 := by decide
  exact hall _ h _ h'

theorem isOn_relative {axis axis' : Nat} {value : Int} :
    (Event.relative axis value).IsOn axis' ↔ axis = axis' := by
  simp [Event.IsOn, Event.relative]

namespace Paired

variable {xs ys : List Event} {axis fine : Nat} {e : Event} {events before after : List Event}

theorem append (hxs : Paired xs) (hys : Paired ys) : Paired (xs ++ ys) := by
  induction hxs with
  | nil => exact hys
  | cons hother _ ih => exact .cons hother ih
  | pair haxis hpair _ ih => exact .pair haxis hpair ih

/-- A wheel event is followed by the same motion in fine units. -/
theorem followed (h : Paired events) (haxis : (axis, fine) ∈ wheels)
    (heq : events = before ++ e :: after) (he : e.IsOn axis) :
    ∃ f rest, after = f :: rest ∧ WheelPair axis fine e f := by
  induction h generalizing before with
  | nil => cases before <;> cases heq
  | cons hother _ ih =>
      cases before with
      | nil =>
          cases heq
          exact absurd he (hother axis fine haxis).1
      | cons d before => exact ih (List.cons.inj heq).2
  | pair haxis' hpair _ ih =>
      obtain ⟨delta, v, w, -, -, rfl, rfl, -⟩ := id hpair
      rcases before with _ | ⟨d, _ | ⟨d', before⟩⟩
      · -- The event is the wheel event of the pair.
        cases heq
        obtain rfl := isOn_relative.mp he
        obtain rfl := (wheels_apart haxis haxis').1.mp rfl
        exact ⟨_, _, rfl, hpair⟩
      · -- The event is the follower, which is on no wheel.
        cases heq
        exact absurd (isOn_relative.mp he).symm (wheels_apart haxis haxis').2
      · exact ih (List.cons.inj (List.cons.inj heq).2).2

/-- An event in fine units follows the same motion of its wheel. -/
theorem follows (h : Paired events) (haxis : (axis, fine) ∈ wheels)
    (heq : events = before ++ e :: after) (he : e.IsOn fine) :
    ∃ earlier d, before = earlier ++ [d] ∧ WheelPair axis fine d e := by
  induction h generalizing before with
  | nil => cases before <;> cases heq
  | cons hother _ ih =>
      cases before with
      | nil =>
          cases heq
          exact absurd he (hother axis fine haxis).2
      | cons d before =>
          obtain ⟨earlier, d', rfl, hpair⟩ := ih (List.cons.inj heq).2
          exact ⟨d :: earlier, d', rfl, hpair⟩
  | pair haxis' hpair _ ih =>
      obtain ⟨delta, v, w, -, -, rfl, rfl, -⟩ := id hpair
      rcases before with _ | ⟨d, _ | ⟨d', before⟩⟩
      · -- The event is the wheel event of the pair, which is on no companion.
        cases heq
        exact absurd (isOn_relative.mp he) (wheels_apart haxis' haxis).2
      · -- The event is the follower.
        cases heq
        obtain rfl := isOn_relative.mp he
        obtain rfl := (wheels_apart haxis haxis').1.mpr rfl
        exact ⟨[], _, rfl, hpair⟩
      · obtain ⟨earlier, d₁, rfl, hpair'⟩ := ih (List.cons.inj (List.cons.inj heq).2).2
        exact ⟨d :: d' :: earlier, d₁, rfl, hpair'⟩

end Paired

/-! ## Portions -/

theorem paired_singleton (e : Event) (h : e.type ≠ EventType.relative.code) : Paired [e] :=
  .cons (fun _ _ _ => ⟨fun hon => h hon.1, fun hon => h hon.1⟩) .nil

theorem Paired.framed {events : List Event} (h : Paired events) (sync : Bool) :
    Paired (framed events sync) := by
  unfold Device.framed
  split
  · exact h.append (paired_singleton .sync (by decide))
  · exact h

/-- The two values of a wheel that fit. -/
theorem wheelPair_of_fits {axis fine : Nat} {delta : Binary64}
    (hdelta : Argument.fitsInt32 delta = true)
    (hfine : Argument.fitsInt32 (delta * .ofNat fineUnits) = true) :
    WheelPair axis fine (.relative axis (wholeValue delta))
      (.relative fine (wholeValue (delta * .ofNat fineUnits))) := by
  obtain ⟨q, hq, hlow, hhigh⟩ := Argument.bounds_of_fitsInt32 hdelta
  obtain ⟨q', hq', -, -⟩ := Argument.bounds_of_fitsInt32 hfine
  obtain ⟨v, hv⟩ := Binary64.truncate_of_isFinite (Binary64.isFinite_iff.mpr ⟨q, hq⟩)
  obtain ⟨w, hw⟩ := Binary64.truncate_of_isFinite (Binary64.isFinite_iff.mpr ⟨q', hq'⟩)
  refine ⟨delta, v, w, hv, hw, ?_, ?_, fun n hn => ?_⟩
  · rw [wholeValue, hv]
  · rw [wholeValue, hw]
  · obtain rfl : q = n := Option.some.inj (hq.symm.trans hn)
    have hsmall : |n * (fineUnits : Int)| < 2 ^ 53 := by
      have hlow' : Argument.int32Min ≤ n := by exact_mod_cast hlow
      have hhigh' : n ≤ Argument.int32Max := by exact_mod_cast hhigh
      unfold Argument.int32Min at hlow'
      unfold Argument.int32Max at hhigh'
      unfold fineUnits
      rw [abs_lt]
      constructor <;> omega
    have hvn : v = n := Except.ok.inj (hv.symm.trans (Binary64.truncate_of_toRat? hn))
    have hproduct := Binary64.toRat?_mul_ofNat hn hsmall
    have hwn := Except.ok.inj (hw.symm.trans (Binary64.truncate_of_toRat? hproduct))
    rw [hwn, hvn]

/-- No axis that has a name is the companion of a wheel. -/
theorem ne_fine_of_mem {axis wheel fine : Nat} (h : axis ∈ relativeAxes.map (·.2))
    (hwheel : (wheel, fine) ∈ wheels) : axis ≠ fine := by
  have hall : ∀ axis ∈ relativeAxes.map (·.2), ∀ wheel ∈ wheels, axis ≠ wheel.2 := by decide
  exact hall axis h _ hwheel

theorem paired_relativeEvents {axis : Nat} (haxis : axis ∈ relativeAxes.map (·.2)) {delta : Binary64}
    {verb : Option String} {events : List Event}
    (h : relativeEvents axis delta verb = .ok events) : Paired events := by
  unfold relativeEvents at h
  dsimp only at h
  split at h
  · next hfits =>
      cases h
      unfold relativeValues at hfits ⊢
      have hcompanion : companion? axis = fineAxis? axis := rfl
      rw [hcompanion] at hfits ⊢
      cases hfine : fineAxis? axis with
      | some fine =>
          rw [hfine] at hfits
          simp only [List.all_cons, List.all_nil, Bool.and_true, Bool.and_eq_true] at hfits
          exact .pair (mem_wheels.mpr hfine) (wheelPair_of_fits hfits.1 hfits.2) .nil
      | none =>
          refine .cons (fun wheel fine hwheel => ⟨fun hon => ?_, fun hon => ?_⟩) .nil
          · obtain rfl := isOn_relative.mp hon
            cases hfine.symm.trans (mem_wheels.mp hwheel)
          · exact ne_fine_of_mem haxis hwheel (isOn_relative.mp hon)
  · cases h

/-- What is delivered at once is paired. -/
theorem Portion.paired {events : List Event} (h : Portion events) : Paired events := by
  cases h with
  | sync => exact paired_singleton .sync (by decide)
  | key code pressed sync =>
      exact (paired_singleton _ (by simp [Event.key, EventType.code])).framed sync
  | relative haxis h sync => exact (paired_relativeEvents haxis h).framed sync
  | absolute axis value sync =>
      exact (paired_singleton _ (by simp [Event.absolute, EventType.code])).framed sync

end Device

/-! ## Runs -/

variable {σ ω : Type} [Host σ] [Sink ω]

/-- What was written is paired, unless a write failed. -/
def Session.WritesPairs (s : Session σ (Logged ω)) : Prop :=
  Device.WritesSucceed s.sink.log → Device.Paired (Device.written s.sink.log)

omit [Host σ] [Sink ω] in
/-- The events stay paired if what is written in addition is paired. -/
theorem Session.WritesPairs.add {s s' : Session σ (Logged ω)} (h : s.WritesPairs)
    {more : List Entry} (hlog : s'.sink.log = s.sink.log ++ more)
    (hmore : Device.WritesSucceed more → Device.Paired (Device.written more)) : s'.WritesPairs := by
  intro hsucceed
  rw [hlog] at hsucceed ⊢
  obtain ⟨hbefore, hafter⟩ := Device.writesSucceed_append.mp hsucceed
  rw [Device.written_append]
  exact (h hbefore).append (hmore hafter)

theorem simulation_writesPairs (p : Profile) :
    Simulation p (Holds (Session.WritesPairs (σ := σ) (ω := ω))) := by
  refine .ofInvariant (fun h _ => h) ?_ ?_
  · intro s h
    obtain ⟨more, hlog, hcreations⟩ := Device.log_openDevice p s
    refine h.add hlog fun _ => ?_
    rw [Device.written_of_creations hcreations]
    exact .nil
  · intro events hportion s h
    obtain ⟨more, hlog, hdelivered⟩ := Device.log_deliver p events s
    refine h.add hlog fun hsucceed => ?_
    rcases hdelivered.whole hsucceed with hnone | hall
    · rw [hnone]
      exact .nil
    · rw [hall]
      exact hportion.paired

/-- **Wheel events come in pairs.**  Take everything that a run writes, of any script or command, if no
write fails.  Every event on the axis of a wheel is followed at once by one on the companion of that
axis; every event on a companion comes at once after one on its wheel; and the two are a pair: for one
delta the first holds its integer part and the second that of the delta in fine units, which is the
first times the number of fine units if the delta is whole. -/
theorem wheel_events_are_paired (task : Task) (fuel : Nat) (r : Runner σ ω)
    (hsucceed : Device.WritesSucceed (task.calls fuel r)) (axis fine : Nat)
    (haxis : (axis, fine) ∈ Device.wheels) (before : List Event) (e : Event) (after : List Event)
    (heq : Device.written (task.calls fuel r) = before ++ e :: after) :
    (e.IsOn axis → ∃ f rest, after = f :: rest ∧ Device.WheelPair axis fine e f) ∧
      (e.IsOn fine → ∃ earlier d, before = earlier ++ [d] ∧ Device.WheelPair axis fine d e) := by
  have hpaired : Device.Paired (Device.written (task.calls fuel r)) :=
    task.invariant_run fuel r.logged (simulation_writesPairs r.settings.device) (fun _ => .nil)
      hsucceed
  exact ⟨hpaired.followed haxis heq, hpaired.follows haxis heq⟩

/-- Both wheels among other events in one frame, one of them by one and a half units; then a wheel
alone. -/
def scrolling : Task :=
  .lines [.text "loop 2\n", .text "input KEYDOWN=KEY_A REL_WHEEL=1.5 REL_X=3 REL_HWHEEL=-2\n",
    .text "wheel 1\n", .text "end\n"] none

theorem wheel_events_are_paired_scrolling :
    Device.WritesSucceed (scrolling.calls 20 newRunner) ∧
      (∃ after, Device.written (scrolling.calls 20 newRunner) =
        [.key 30 true, .relative 8 1, .relative 11 180, .relative 0 3, .relative 6 (-2),
          .relative 12 (-240), .sync] ++ after) ∧
      Device.WheelPair 8 11 (.relative 8 1) (.relative 11 180) ∧
      Device.WheelPair 6 12 (.relative 6 (-2)) (.relative 12 (-240)) := by
  have hrun : Device.WritesSucceed (scrolling.calls 20 newRunner) ∧
      Device.written (scrolling.calls 20 newRunner) =
        [.key 30 true, .relative 8 1, .relative 11 180, .relative 0 3, .relative 6 (-2),
          .relative 12 (-240), .sync, .relative 8 1, .relative 11 120, .sync,
          .key 30 true, .relative 8 1, .relative 11 180, .relative 0 3, .relative 6 (-2),
          .relative 12 (-240), .sync, .relative 8 1, .relative 11 120, .sync] := by
    decide +kernel
  obtain ⟨hsucceed, hwritten⟩ := hrun
  obtain ⟨f, rest, hafter, hvertical⟩ :=
    (wheel_events_are_paired scrolling 20 newRunner hsucceed 8 11 (by decide) [.key 30 true]
      (.relative 8 1) _ hwritten).1 (by decide)
  obtain ⟨earlier, d, hbefore, hhorizontal⟩ :=
    (wheel_events_are_paired scrolling 20 newRunner hsucceed 6 12 (by decide)
      [.key 30 true, .relative 8 1, .relative 11 180, .relative 0 3, .relative 6 (-2)]
      (.relative 12 (-240)) _ hwritten).2 (by decide)
  obtain ⟨rfl, -⟩ := List.cons.inj hafter
  have hlast : some (.relative 6 (-2)) = some d := by
    simpa using congrArg List.getLast? hbefore
  obtain rfl := Option.some.inj hlast
  exact ⟨hsucceed, ⟨_, hwritten⟩, hvertical, hhorizontal⟩

end InputScript
