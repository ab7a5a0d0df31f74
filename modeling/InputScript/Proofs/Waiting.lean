import Mathlib.Algebra.Order.Field.Basic
import Mathlib.Algebra.Order.Ring.Rat
import Mathlib.Tactic.Linarith
import InputScript.Clock

/-!
# Waiting in exact arithmetic

A wait sleeps until the clock has reached a deadline.  A sleep may end early, and then the wait sleeps
again for what remains.  The time that remains is no measure for this loop: a sleep that does not last
at all leaves it as it is, and one that lasts less than that makes it longer.  What does get less is the
number of wake factors.  Once they are used up a sleep lasts as long as it is asked to, and then the
deadline is reached.

A clock that is watched (`Watched`) keeps its readings.  Between two sleeps the clock is read once, so
the readings say what each sleep was asked for: the time from the reading before it to the deadline.

## Main results

* `Watched.waitUntil_eq` — watching a clock changes nothing.
* `Watched.ends_waitUntil` — a wait ends, by induction on the wake factors.
* `SteppedClock.interrupted_sleeps_resume` — what a wait asks of the clock, and when it returns.
-/

namespace InputScript

/-! ## One round of a wait -/

section Round

variable {τ κ : Type} [Clock τ κ] [Sub τ] [LT τ] [DecidableLT τ] [OfNat τ 0]
  {deadline remaining : τ} {clock : κ}

theorem waitUntil_of_not_pos (h : ¬ 0 < remaining) (bound : Nat) :
    waitUntil deadline bound remaining clock = (true, clock) := by
  rw [waitUntil.eq_def]
  simp only [if_neg h]

theorem waitUntil_of_pos (h : 0 < remaining) (bound : Nat) :
    waitUntil deadline (bound + 1) remaining clock =
      waitUntil deadline bound (deadline - (Clock.read (Clock.sleep remaining clock)).1)
        (Clock.read (Clock.sleep remaining clock)).2 := by
  rw [waitUntil.eq_def]
  simp only [if_pos h]

theorem waitUntil_zero (h : 0 < remaining) :
    waitUntil deadline 0 remaining clock = (false, clock) := by
  rw [waitUntil.eq_def]
  simp only [if_pos h]

/-- A wait that ends does the same if it is given a larger bound. -/
theorem waitUntil_of_le {clock' : κ} {bound bound' : Nat}
    (h : waitUntil deadline bound remaining clock = (true, clock')) (hle : bound ≤ bound') :
    waitUntil deadline bound' remaining clock = (true, clock') := by
  induction bound generalizing remaining clock bound' with
  | zero =>
      by_cases hpos : 0 < remaining
      · rw [waitUntil_zero hpos] at h
        cases h
      · rwa [waitUntil_of_not_pos hpos] at h ⊢
  | succ bound ih =>
      by_cases hpos : 0 < remaining
      · obtain ⟨n, rfl⟩ : ∃ n, bound' = n + 1 := ⟨bound' - 1, by omega⟩
        rw [waitUntil_of_pos hpos] at h ⊢
        exact ih h (Nat.le_of_succ_le_succ hle)
      · rwa [waitUntil_of_not_pos hpos] at h ⊢

end Round

/-! ## Watched clocks -/

/-- A clock that keeps its readings. -/
structure Watched (τ κ : Type) where
  clock : κ
  /-- The readings, last first. -/
  readings : List τ := []
deriving DecidableEq, Repr

namespace Watched

section Watch

variable {τ κ : Type} [Clock τ κ]

instance : Clock τ (Watched τ κ) where
  read w := ((Clock.read w.clock).1,
    { clock := (Clock.read w.clock).2, readings := (Clock.read w.clock).1 :: w.readings })
  sleep t w := { w with clock := Clock.sleep t w.clock }
  patience w := Clock.patience w.clock

variable [Sub τ] [LT τ] [DecidableLT τ] [OfNat τ 0]

/-- A clock that is watched does what it does when it is not. -/
theorem waitUntil_eq (deadline : τ) (bound : Nat) (remaining : τ) (w : Watched τ κ) :
    waitUntil deadline bound remaining w.clock =
      ((waitUntil deadline bound remaining w).1, (waitUntil deadline bound remaining w).2.clock) := by
  induction bound generalizing remaining w with
  | zero =>
      by_cases hpos : 0 < remaining
      · rw [waitUntil_zero hpos, waitUntil_zero hpos]
      · rw [waitUntil_of_not_pos hpos, waitUntil_of_not_pos hpos]
  | succ bound ih =>
      by_cases hpos : 0 < remaining
      · rw [waitUntil_of_pos hpos, waitUntil_of_pos hpos]
        exact ih _ (Clock.read (Clock.sleep remaining w)).2
      · rw [waitUntil_of_not_pos hpos, waitUntil_of_not_pos hpos]

end Watch

end Watched

/-! ## A sleep and the reading after it -/

namespace SteppedClock

variable {τ : Type} [Semiring τ]

/-- The part of its time that the next sleep lasts. -/
def factor (c : SteppedClock τ) : τ := c.wake.headD 1

/-- The clock after a sleep and the reading that follows it. -/
def slept (t : τ) (c : SteppedClock τ) : SteppedClock τ :=
  { c with
    now := c.now + t * c.factor + c.tick
    wake := c.wake.tail
    sleeps := t :: c.sleeps }

theorem read_sleep (t : τ) (c : SteppedClock τ) :
    (c.sleep t).read = (c.now + t * c.factor, c.slept t) := by
  obtain ⟨now, tick, wake, sleeps⟩ := c
  cases wake with
  | nil => simp [sleep, read, slept, factor]
  | cons f wake => simp [sleep, read, slept, factor]

end SteppedClock

/-! ## The rounds of a wait -/

namespace Watched

variable {τ : Type} [Field τ] [LinearOrder τ]

/-- What a wait does to a clock that was just read at `r`: it sleeps for what remains after each
reading before the deadline, and returns at a reading behind it. -/
structure Ends (deadline r : τ) (earlier : List τ) (c : SteppedClock τ)
    (w : Watched τ (SteppedClock τ)) (last : τ) (early : List τ) : Prop where
  readings : w.readings = last :: (early ++ earlier)
  first : (last :: early).getLast? = some r
  sleeps : w.clock.sleeps = early.map (deadline - ·) ++ c.sleeps
  before : ∀ t ∈ early, t < deadline
  behind : deadline ≤ last
  count : early.length ≤ c.wake.length + 1
  now : w.clock.now = last + c.tick
  /-- Without ticks and late sleeps the deadline is met. -/
  exact : c.tick = 0 → (∀ f ∈ c.wake, f ≤ 1) → r ≤ deadline → last = deadline

variable {c : SteppedClock τ}

/-- A wait whose deadline is over does nothing. -/
theorem Ends.over {deadline r : τ} {earlier : List τ} (h : deadline ≤ r) (hnow : c.now = r + c.tick) :
    Ends deadline r earlier c ⟨c, r :: earlier⟩ r [] where
  readings := rfl
  first := rfl
  sleeps := rfl
  before _ ht := absurd ht List.not_mem_nil
  behind := h
  count := Nat.zero_le _
  now := hnow
  exact _ _ hle := le_antisymm hle h

variable {w : Watched τ (SteppedClock τ)}

theorem Ends.early_eq_nil {deadline r last : τ} {earlier early : List τ}
    (h : Ends deadline r earlier c w last early) (hle : deadline ≤ r) : early = [] := by
  cases early with
  | nil => rfl
  | cons t early =>
      have hmem : r ∈ t :: early := List.mem_of_getLast? h.first
      exact absurd (h.before r hmem) (not_lt.mpr hle)

/-- One sleep of a watched clock, with the reading that follows it. -/
theorem waitUntil_round {deadline r : τ} (hpos : 0 < deadline - r) (bound : Nat) (earlier : List τ)
    (c : SteppedClock τ) :
    waitUntil deadline (bound + 1) (deadline - r) (⟨c, earlier⟩ : Watched τ (SteppedClock τ)) =
      waitUntil deadline bound (deadline - (c.now + (deadline - r) * c.factor))
        (⟨c.slept (deadline - r), (c.now + (deadline - r) * c.factor) :: earlier⟩ :
          Watched τ (SteppedClock τ)) := by
  have hread : Clock.read (Clock.sleep (deadline - r) c) =
      (c.now + (deadline - r) * c.factor, c.slept (deadline - r)) := c.read_sleep _
  rw [waitUntil_of_pos hpos]
  show waitUntil deadline bound (deadline - (Clock.read (Clock.sleep (deadline - r) c)).1)
    (⟨(Clock.read (Clock.sleep (deadline - r) c)).2,
      (Clock.read (Clock.sleep (deadline - r) c)).1 :: earlier⟩ : Watched τ (SteppedClock τ)) = _
  rw [hread]

variable [IsStrictOrderedRing τ]

/-- A wait that sleeps once and then waits on. -/
theorem Ends.again {deadline r : τ} {earlier early : List τ} {last : τ}
    (h : Ends deadline (c.now + (deadline - r) * c.factor) (r :: earlier)
      (c.slept (deadline - r)) w last early) (hpos : 0 < deadline - r) (hnow : c.now = r + c.tick)
    (hcount : early.length ≤ c.wake.length) :
    Ends deadline r earlier c w last (early ++ [r]) where
  readings := by rw [h.readings, List.append_assoc, List.singleton_append]
  first := by rw [← List.cons_append, List.getLast?_concat]
  sleeps := by
    rw [h.sleeps, List.map_append, List.append_assoc]
    rfl
  before t ht := by
    rcases List.mem_append.mp ht with ht | ht
    · exact h.before t ht
    · rw [List.mem_singleton.mp ht]
      exact sub_pos.mp hpos
  behind := h.behind
  count := by
    rw [List.length_append, List.length_singleton]
    omega
  now := h.now
  exact htick hfactors _ := by
    have hfactor : c.factor ≤ 1 := by
      unfold SteppedClock.factor
      cases hwake : c.wake with
      | nil => exact le_refl 1
      | cons f wake => exact hfactors f (hwake ▸ List.mem_cons_self)
    have hreached : (deadline - r) * c.factor ≤ deadline - r :=
      mul_le_of_le_one_right hpos.le hfactor
    refine h.exact htick (fun f hf => hfactors f (List.mem_of_mem_tail hf)) ?_
    rw [hnow, htick]
    linarith

theorem waitUntil_of_over {deadline r : τ} {bound : Nat} (h : deadline ≤ r) :
    waitUntil deadline bound (deadline - r) w = (true, w) :=
  waitUntil_of_not_pos (not_lt.mpr (sub_nonpos.mpr h)) bound

/-- A wait ends if its bound is above the number of wake factors.  Each sleep uses one of them up, and
a sleep without one reaches the deadline. -/
theorem ends_waitUntil (deadline : τ) {r : τ} (htick : 0 ≤ c.tick) (hnow : c.now = r + c.tick)
    {bound : Nat} (hbound : c.wake.length < bound) (earlier : List τ) :
    ∃ w last early,
      waitUntil deadline bound (deadline - r) (⟨c, r :: earlier⟩ : Watched τ (SteppedClock τ)) =
        (true, w) ∧ Ends deadline r earlier c w last early := by
  induction bound generalizing c r earlier with
  | zero => exact absurd hbound (Nat.not_lt_zero _)
  | succ bound ih =>
      rcases le_or_gt deadline r with hover | hearly
      · exact ⟨_, r, [], waitUntil_of_over hover, .over hover hnow⟩
      · rw [waitUntil_round (sub_pos.mpr hearly)]
        cases hwake : c.wake with
        | nil =>
            have hreached : deadline ≤ c.now + (deadline - r) * c.factor := by
              rw [SteppedClock.factor, hwake, List.headD_nil, hnow]
              linarith
            exact ⟨_, _, [r], waitUntil_of_over hreached,
              (Ends.over hreached rfl).again (sub_pos.mpr hearly) hnow (Nat.zero_le _)⟩
        | cons f wake =>
            have hslept : (c.slept (deadline - r)).wake.length + 1 = c.wake.length := by
              rw [SteppedClock.slept, hwake]
              rfl
            obtain ⟨w, last, early, hwait, hends⟩ :=
              ih (c := c.slept (deadline - r)) htick rfl (by omega) (r :: earlier)
            exact ⟨w, last, early ++ [r], hwait,
              hends.again (sub_pos.mpr hearly) hnow (hslept ▸ hends.count)⟩

end Watched

namespace SteppedClock

variable {τ : Type} [Field τ] [LinearOrder τ] [IsStrictOrderedRing τ]

/-- **Interrupted sleeps are resumed, and a wait ends**.  A wait makes at most one more sleep than
there are wake factors, whatever bound above that it is given.  The clock is read once at first and
once after each sleep, and each sleep is asked for the time from the reading before it to the
deadline, which is never zero or less; a delay of zero or less makes no sleep.  The wait returns
after the first reading that is not before the deadline.  If reading takes no time and no sleep lasts
longer than asked, then it returns at the deadline. -/
theorem interrupted_sleeps_resume (delay : τ) (c : SteppedClock τ) (htick : 0 ≤ c.tick) :
    ∃ (c' : SteppedClock τ) (last : τ) (early slept : List τ),
      waitFor delay c = (true, c') ∧
      (∀ bound, c.wake.length < bound →
        waitUntil (c.now + delay) bound delay (Clock.read c).2 = (true, c')) ∧
      waitFor delay (⟨c, []⟩ : Watched τ (SteppedClock τ)) = (true, ⟨c', last :: early⟩) ∧
      (last :: early).getLast? = some c.now ∧
      c'.sleeps = slept ++ c.sleeps ∧
      slept = early.map (c.now + delay - ·) ∧
      slept.length ≤ c.wake.length + 1 ∧
      (∀ t ∈ slept, 0 < t) ∧
      (delay ≤ 0 → slept = []) ∧
      c.now + delay ≤ last ∧
      c'.now = last + c.tick ∧
      (0 ≤ delay → c.tick = 0 → (∀ f ∈ c.wake, 0 ≤ f ∧ f ≤ 1) → c'.now = c.now + delay) := by
  obtain ⟨w, last, early, hwait, hends⟩ :=
    Watched.ends_waitUntil (c.now + delay) (r := c.now) (c := (Clock.read c).2) htick rfl
      (Nat.lt_succ_self c.wake.length) []
  obtain ⟨c', readings⟩ := w
  obtain rfl : readings = last :: early := hends.readings.trans (by rw [List.append_nil])
  rw [add_sub_cancel_left] at hwait
  have hall : ∀ bound, c.wake.length < bound →
      waitUntil (c.now + delay) bound delay (Clock.read c).2 = (true, c') := fun bound hbound =>
    (Watched.waitUntil_eq (c.now + delay) bound delay ⟨(Clock.read c).2, [c.now]⟩).trans
      (by rw [waitUntil_of_le hwait hbound])
  have hpatience : c.wake.length < Clock.patience c := Nat.lt_add_of_pos_right (by decide)
  refine ⟨c', last, early, _, hall _ hpatience, hall, waitUntil_of_le hwait hpatience,
    hends.first, hends.sleeps, rfl, ?_, fun t ht => ?_, fun hdelay => ?_, hends.behind,
    hends.now, fun hdelay hzero hfactors => ?_⟩
  · rw [List.length_map]
    exact hends.count
  · obtain ⟨r, hr, rfl⟩ := List.mem_map.mp ht
    exact sub_pos.mpr (hends.before r hr)
  · rw [hends.early_eq_nil (add_le_of_nonpos_right hdelay), List.map_nil]
  · rw [hends.now, hends.exact hzero (fun f hf => (hfactors f hf).2) (le_add_of_nonneg_right hdelay)]
    show c.now + delay + c.tick = _
    rw [hzero, add_zero]

/-- The first sleep is woken at once, and the second halfway. -/
def wokenTwice : SteppedClock ℚ := { now := 10, tick := 0, wake := [0, 1 / 2] }

theorem interrupted_sleeps_resume_wokenTwice :
    (0 ≤ wokenTwice.tick ∧ wokenTwice.tick = 0 ∧ ∀ f ∈ wokenTwice.wake, 0 ≤ f ∧ f ≤ 1) ∧
      ∃ (c' : SteppedClock ℚ) (last : ℚ) (early slept : List ℚ),
        waitFor 1 wokenTwice = (true, c') ∧
        waitFor 1 (⟨wokenTwice, []⟩ : Watched ℚ (SteppedClock ℚ)) = (true, ⟨c', last :: early⟩) ∧
        (last :: early).getLast? = some 10 ∧
        c'.sleeps = slept ∧
        slept = early.map (10 + 1 - ·) ∧
        slept.length ≤ 3 ∧
        (∀ t ∈ slept, 0 < t) ∧
        10 + 1 ≤ last ∧
        c'.now = 10 + 1 ∧
        slept = [1 / 2, 1, 1] := by
  have htick : 0 ≤ wokenTwice.tick := le_refl 0
  have hfactors : ∀ f ∈ wokenTwice.wake, 0 ≤ f ∧ f ≤ 1 := by decide +kernel
  obtain ⟨c', last, early, slept, hwait, -, hwatched, hfirst, hsleeps, hslept, hcount, hpos, -, hbehind,
    -, hexact⟩ := interrupted_sleeps_resume 1 wokenTwice htick
  have hslept' : slept = [1 / 2, 1, 1] := by
    have hrun : (waitFor 1 wokenTwice).2.sleeps = [1 / 2, 1, 1] := by decide +kernel
    rw [hwait, hsleeps] at hrun
    exact (List.append_nil slept).symm.trans hrun
  exact ⟨⟨htick, rfl, hfactors⟩, c', last, early, slept, hwait, hwatched, hfirst,
    hsleeps.trans (List.append_nil slept), hslept, hcount, hpos, hbehind,
    hexact zero_le_one rfl hfactors, hslept'⟩

end SteppedClock

end InputScript
