import InputScript.Device.Action
import Mathlib.Algebra.Order.Field.Power
import Mathlib.Data.Rat.Floor
import Mathlib.Tactic.Linarith
import Mathlib.Tactic.NormNum

/-!
# How far rounding goes

Rounding a rational moves it by at most a unit in the last place, and that unit is no larger than the
rational itself, or than one.  So a rational that is far below the range of the format stays finite
when it is rounded (`isFinite_round`).  An integer of at most 53 bits is not moved at all
(`round_intCast`).

This is what the number of taps rests on: a run time divided by a delay is an ordinary number if both
are times that a script may ask for (`tapCount_of_isDuration`).
-/

namespace InputScript

variable {q : Rat} {y : Binary64} {n : Int}

namespace Binary64

/-! ## Finite numbers -/

variable {x : Binary64}

theorem isFinite_iff : x.isFinite = true ↔ ∃ q, x.toRat? = some q := by
  rw [isFinite, Option.isSome_iff_exists]

/-- Finite numbers are compared by their values. -/
theorem lt_iff {p : Rat} (hx : x.toRat? = some p) (hy : y.toRat? = some q) :
    x < y ↔ p < q := by
  show x.lt y = true ↔ p < q
  cases x <;> cases y <;> simp_all [lt, toRat?]

theorem le_iff {p : Rat} (hx : x.toRat? = some p) (hy : y.toRat? = some q) :
    x ≤ y ↔ p ≤ q := by
  have hlt : x.lt y = true ↔ p < q := lt_iff hx hy
  have heq : x.eq y = true ↔ p = q := by
    cases x <;> cases y <;> simp_all [eq, toRat?]
  show x.le y = true ↔ p ≤ q
  rw [le, Bool.or_eq_true, hlt, heq, le_iff_lt_or_eq]

theorem le_of_lt (h : x < y) : x ≤ y := by
  show (x.lt y || x.eq y) = true
  rw [show x.lt y = true from h, Bool.true_or]

/-- What lies between finite numbers is finite. -/
theorem toRat?_of_between {low high : Binary64} {p r : Rat} (hlow : low.toRat? = some p)
    (hhigh : high.toRat? = some r) (hmin : low ≤ x) (hmax : x ≤ high) : ∃ q, x.toRat? = some q := by
  have hge : low.le x = true := hmin
  have hle : x.le high = true := hmax
  cases x with
  | nan => cases low <;> cases hge
  | infinity negative =>
      cases negative with
      | false => cases high <;> simp_all [le, lt, eq, toRat?]
      | true => cases low <;> simp_all [le, lt, eq, toRat?]
  | negativeZero => exact ⟨0, rfl⟩
  | finite q => exact ⟨q, rfl⟩

/-! ## The unit in the last place -/

theorem twoPow_eq (e : Int) : twoPow e = (2 : Rat) ^ e := by
  cases e with
  | ofNat k => simp [twoPow]
  | negSucc k => simp [twoPow, Rat.mkRat_eq_div, zpow_negSucc]

theorem twoPow_pos (e : Int) : 0 < twoPow e := by
  rw [twoPow_eq]
  exact zpow_pos two_pos e

theorem twoPow_neg_mul (e : Int) : twoPow (-e) * twoPow e = 1 := by
  rw [twoPow_eq, twoPow_eq, zpow_neg, inv_mul_cancel₀ (zpow_ne_zero _ two_ne_zero)]

/-- A positive rational is at least the power of two at its leading bit. -/
theorem twoPow_leadingExponent_le (hq : 0 < q) : twoPow (leadingExponent q) ≤ q := by
  unfold leadingExponent
  dsimp only
  split
  · assumption
  · have hnum : (2 : Rat) ^ (q.num.natAbs.log2 : Int) ≤ q.num := by
      have hne : q.num.natAbs ≠ 0 := Int.natAbs_ne_zero.mpr (Rat.num_pos.mpr hq).ne'
      have hle := Nat.log2_self_le hne
      have habs : ((q.num.natAbs : Int) : Rat) = q.num := by
        rw [Int.natAbs_of_nonneg (Rat.num_pos.mpr hq).le]
      rw [zpow_natCast, ← habs]
      exact_mod_cast hle
    have hden : (q.den : Rat) ≤ 2 ^ ((q.den.log2 : Int) + 1) := by
      have hlt := Nat.lt_log2_self (n := q.den)
      have hcast : ((q.den.log2 : Int) + 1) = ((q.den.log2 + 1 : Nat) : Int) := by push_cast; rfl
      rw [hcast, zpow_natCast]
      exact_mod_cast hlt.le
    have hpos : (0 : Rat) < q.den := by exact_mod_cast q.den_pos
    rw [twoPow_eq]
    calc (2 : Rat) ^ ((q.num.natAbs.log2 : Int) - (q.den.log2 : Int) - 1)
        = 2 ^ (q.num.natAbs.log2 : Int) / 2 ^ ((q.den.log2 : Int) + 1) := by
          rw [sub_sub, zpow_sub₀ two_ne_zero]
      _ ≤ q.num / q.den := div_le_div₀ (by exact_mod_cast (Rat.num_pos.mpr hq).le) hnum hpos hden
      _ = q := Rat.num_div_den q

theorem abs_eq (q : Rat) : q.abs = |q| := by
  unfold Rat.abs
  split
  · next h => exact (abs_of_nonneg h).symm
  · next h => exact (abs_of_neg (not_le.mp h)).symm

/-- The unit is no larger than the rational or one. -/
theorem twoPow_unitExponent_le (hq : q ≠ 0) : twoPow (unitExponent q) ≤ |q| + 1 := by
  have hpos : 0 < q.abs := by
    rw [abs_eq]
    exact abs_pos.mpr hq
  unfold unitExponent
  rcases le_total (leadingExponent q.abs - 52) leastUnit with hle | hle
  · rw [max_eq_right hle, twoPow_eq]
    have hone : (2 : Rat) ^ leastUnit ≤ 1 := zpow_le_one_of_nonpos₀ one_le_two (by decide)
    linarith [abs_nonneg q]
  · rw [max_eq_left hle]
    have hdown : twoPow (leadingExponent q.abs - 52) ≤ twoPow (leadingExponent q.abs) := by
      rw [twoPow_eq, twoPow_eq]
      exact zpow_le_zpow_right₀ one_le_two (by omega)
    have hlead := twoPow_leadingExponent_le hpos
    rw [abs_eq] at hdown hlead
    rw [abs_eq]
    linarith

/-! ## Rounding -/

theorem abs_roundHalfEven_le (q : Rat) : |(roundHalfEven q : Rat)| ≤ |q| + 1 := by
  have hlow := Rat.floor_le q
  have hhigh : q - 1 < q.floor := Rat.lt_floor
  have hnear : (roundHalfEven q : Rat) = q.floor ∨
      (roundHalfEven q : Rat) = q.floor + 1 ∧ (1 / 2 : Rat) ≤ q - q.floor := by
    unfold roundHalfEven
    dsimp only
    split
    · exact .inl rfl
    · next hless =>
        split
        · exact .inr ⟨by push_cast; rfl, not_lt.mp hless⟩
        · split
          · exact .inl rfl
          · exact .inr ⟨by push_cast; rfl, not_lt.mp hless⟩
  have hself := abs_le.mp (le_refl |q|)
  rw [abs_le]
  rcases hnear with hnear | ⟨hnear, -⟩ <;> rw [hnear] <;> constructor <;> linarith

/-- Rounding at most doubles a rational, but for one. -/
theorem abs_nearest_le (hq : q ≠ 0) : |nearest q| ≤ 2 * |q| + 1 := by
  have hunit := twoPow_pos (unitExponent q)
  calc |nearest q|
      = |(roundHalfEven (q * twoPow (-unitExponent q)) : Rat)| * twoPow (unitExponent q) := by
        rw [nearest, abs_mul, abs_of_pos hunit]
    _ ≤ (|q * twoPow (-unitExponent q)| + 1) * twoPow (unitExponent q) :=
        mul_le_mul_of_nonneg_right (abs_roundHalfEven_le _) hunit.le
    _ = |q| + twoPow (unitExponent q) := by
        rw [abs_mul, abs_of_pos (twoPow_pos (-unitExponent q)), add_mul, mul_assoc, twoPow_neg_mul,
          mul_one, one_mul]
    _ ≤ 2 * |q| + 1 := by linarith [twoPow_unitExponent_le hq]

/-- Rationals far below the range of the format are rounded to finite numbers. -/
theorem isFinite_round (h : 2 * |q| + 1 < overflowBound) : (round q).isFinite = true := by
  unfold round
  by_cases hq : q = 0
  · rw [if_pos hq]
    rfl
  · rw [if_neg hq]
    have hrange : ¬ overflowBound ≤ (nearest q).abs := by
      rw [abs_eq, not_le]
      exact (abs_nearest_le hq).trans_lt h
    dsimp only
    rw [if_neg hrange]
    split <;> rfl

theorem round_ne_nan (q : Rat) : round q ≠ .nan := by
  unfold round
  split
  · nofun
  · dsimp only
    split
    · nofun
    · split <;> nofun

theorem isFinite_of_ofInt? (h : ofInt? n = some x) :
    x.isFinite = true := by
  unfold ofInt? at h
  cases hround : round n with
  | nan => exact absurd hround (round_ne_nan n)
  | infinity negative =>
      rw [hround] at h
      cases h
  | negativeZero =>
      rw [hround] at h
      cases h
      rfl
  | finite q =>
      rw [hround] at h
      cases h
      rfl

theorem truncate_of_isFinite (h : x.isFinite = true) : ∃ n, x.truncate = .ok n := by
  cases x with
  | nan => cases h
  | infinity negative => cases h
  | negativeZero => exact ⟨0, rfl⟩
  | finite q => exact ⟨_, rfl⟩

theorem isZero_of_pos (hx : x.toRat? = some q) (hq : 0 < q) :
    x.isZero = false := by
  cases x with
  | nan => cases hx
  | infinity negative => cases hx
  | negativeZero =>
      cases hx
      exact absurd hq (lt_irrefl 0)
  | finite r =>
      cases hx
      exact decide_eq_false hq.ne'

/-- The quotient of two positive numbers. -/
theorem div_eq {p : Rat} (hx : x.toRat? = some p) (hy : y.toRat? = some q) (hp : 0 < p) (hq : 0 < q) :
    x / y = round (p / q) := by
  show x.div y = round (p / q)
  unfold div
  simp only [hx, hy, if_neg hq.ne', if_neg hp.ne']

/-! ## Integers that the format holds -/

theorem roundHalfEven_intCast (n : Int) : roundHalfEven n = n := by
  have hfloor : (n : Rat).floor = n := Rat.floor_intCast n
  unfold roundHalfEven
  dsimp only
  rw [hfloor, sub_self, if_pos (by norm_num)]

/-- The leading bit of a rational below a power of two is below it. -/
theorem leadingExponent_lt (hq : 0 < q) {k : Int} (h : q < twoPow k) :
    leadingExponent q < k := by
  have hle := (twoPow_leadingExponent_le hq).trans_lt h
  rw [twoPow_eq, twoPow_eq] at hle
  exact (zpow_lt_zpow_iff_right₀ one_lt_two).mp hle

/-- An integer of at most 53 bits is a multiple of its unit in the last place. -/
theorem nearest_intCast (hn : n ≠ 0) (hsmall : |n| < 2 ^ 53) : nearest n = n := by
  have hq : (n : Rat) ≠ 0 := Int.cast_ne_zero.mpr hn
  have habs : (n : Rat).abs < twoPow 53 := by
    rw [abs_eq, twoPow_eq]
    exact_mod_cast hsmall
  have hpos : 0 < (n : Rat).abs := by
    rw [abs_eq]
    exact abs_pos.mpr hq
  have hunit : unitExponent n ≤ 0 := by
    have hlead := leadingExponent_lt hpos habs
    exact max_le (by omega) (by decide)
  obtain ⟨k, hk⟩ := Int.eq_ofNat_of_zero_le (Int.neg_nonneg_of_nonpos hunit)
  have hscaled : (n : Rat) * twoPow (-unitExponent n) = ((n * 2 ^ k : Int) : Rat) := by
    rw [hk, twoPow_eq, zpow_natCast]
    push_cast
    rfl
  calc nearest n
      = (roundHalfEven (n * twoPow (-unitExponent n)) : Rat) * twoPow (unitExponent n) := rfl
    _ = n * twoPow (-unitExponent n) * twoPow (unitExponent n) := by
        rw [hscaled, roundHalfEven_intCast]
    _ = n := by rw [mul_assoc, twoPow_neg_mul, mul_one]

/-- An integer of at most 53 bits is held exactly. -/
theorem round_intCast (hsmall : |n| < 2 ^ 53) : round n = .finite n := by
  unfold round
  by_cases hn : n = 0
  · subst hn
    rw [if_pos Int.cast_zero]
    rfl
  · have hq : (n : Rat) ≠ 0 := Int.cast_ne_zero.mpr hn
    have hrange : ¬ overflowBound ≤ (n : Rat).abs := by
      rw [abs_eq, not_le, overflowBound, twoPow_eq]
      calc |(n : Rat)| < 2 ^ (53 : Int) := by exact_mod_cast hsmall
        _ ≤ 2 ^ (1024 : Int) := zpow_le_zpow_right₀ one_le_two (by decide)
    rw [if_neg hq, nearest_intCast hn hsmall]
    dsimp only
    rw [if_neg hrange, if_neg (by simp [hq])]

theorem truncate_finite_intCast (n : Int) : (finite n).truncate = .ok n := by
  simp [truncate]

/-- The integer part of an integer is itself. -/
theorem truncate_of_toRat? (hx : x.toRat? = some (n : Rat)) :
    x.truncate = .ok n := by
  cases x with
  | nan => cases hx
  | infinity negative => cases hx
  | negativeZero =>
      have hn : (0 : Rat) = n := Option.some.inj hx
      rw [Int.cast_eq_zero.mp hn.symm]
      rfl
  | finite q =>
      obtain rfl : q = n := Option.some.inj hx
      exact truncate_finite_intCast n

/-- The product of an integer with a natural number is exact if it has at most 53 bits. -/
theorem toRat?_mul_ofNat {k : Nat} (hx : x.toRat? = some (n : Rat)) (hsmall : |n * k| < 2 ^ 53) :
    (x * ofNat k).toRat? = some ((n * k : Int) : Rat) := by
  show (x.mul (ofNat k)).toRat? = _
  have hcast : (n : Rat) * (k : Rat) = ((n * k : Int) : Rat) := by push_cast; rfl
  have hk : (ofNat k).toRat? = some (k : Rat) := rfl
  unfold mul
  simp only [hx, hk]
  rw [hcast]
  by_cases hzero : ((n * k : Int) : Rat) = 0
  · rw [if_pos hzero, hzero]
    unfold zero
    split <;> rfl
  · rw [if_neg hzero, round_intCast hsmall]
    rfl

/-- The integer part of a number between two integers lies between them too. -/
theorem truncate_between {low high : Int} (hx : x.toRat? = some q) (hlow : (low : Rat) ≤ q)
    (hhigh : q ≤ high) :
    ∃ n, x.truncate = .ok n ∧ low ≤ n ∧ n ≤ high := by
  cases x with
  | nan => cases hx
  | infinity negative => cases hx
  | negativeZero =>
      obtain rfl : (0 : Rat) = q := Option.some.inj hx
      exact ⟨0, rfl, by exact_mod_cast hlow, by exact_mod_cast hhigh⟩
  | finite r =>
      obtain rfl : r = q := Option.some.inj hx
      refine ⟨r.num.tdiv r.den, rfl, ?_⟩
      have hden : (0 : Int) < r.den := by exact_mod_cast r.den_pos
      have hlow' : low * r.den ≤ r.num := by simpa using (Rat.le_iff low r).mp hlow
      have hhigh' : -high * r.den ≤ -r.num := by
        rw [Int.neg_mul, Int.neg_le_neg_iff]
        simpa using (Rat.le_iff r high).mp hhigh
      -- The upper bound is the lower one of the number with the other sign.
      have hneg := Int.le_tdiv_of_mul_le hden hhigh'
      rw [Int.neg_tdiv, Int.neg_le_neg_iff] at hneg
      exact ⟨Int.le_tdiv_of_mul_le hden hlow', hneg⟩

end Binary64

variable {x : Binary64}

/-- What is read as a number is finite. -/
theorem Number.isFinite_of_readNumber {text : String} (h : readNumber text = .number x) :
    x.isFinite = true := by
  unfold readNumber at h
  dsimp only at h
  split at h
  · split at h
    · next hfinite =>
        cases h
        exact hfinite
    · cases h
  · split at h
    · cases h
    · split at h
      · next hread =>
          cases h
          exact Binary64.isFinite_of_ofInt? hread
      · cases h

namespace Argument

theorem toRat?_int32Min : (Binary64.round int32Min).toRat? = some (int32Min : Rat) := by
  rw [Binary64.round_intCast (by decide)]
  rfl

theorem toRat?_int32Max : (Binary64.round int32Max).toRat? = some (int32Max : Rat) := by
  rw [Binary64.round_intCast (by decide)]
  rfl

/-- A finite number is in the 32-bit range if it lies between the bounds. -/
theorem fitsInt32_iff (hx : x.toRat? = some q) :
    fitsInt32 x = true ↔ (int32Min : Rat) ≤ q ∧ q ≤ (int32Max : Rat) := by
  rw [fitsInt32, Bool.and_eq_true]
  exact and_congr (Binary64.le_iff toRat?_int32Min hx) (Binary64.le_iff hx toRat?_int32Max)

/-- A number in the 32-bit range is finite, and lies between the bounds. -/
theorem bounds_of_fitsInt32 (h : fitsInt32 x = true) :
    ∃ q, x.toRat? = some q ∧ (int32Min : Rat) ≤ q ∧ q ≤ (int32Max : Rat) := by
  obtain ⟨hmin, hmax⟩ := Bool.and_eq_true_iff.mp h
  obtain ⟨q, hq⟩ := Binary64.toRat?_of_between toRat?_int32Min toRat?_int32Max hmin hmax
  exact ⟨q, hq, (fitsInt32_iff hq).mp h⟩

/-- A time as sleeps and delays have it. -/
def IsDuration (x : Binary64) : Prop := minDuration < x ∧ x ≤ maxDuration

/-- The shortest time, as a rational. -/
theorem exists_toRat?_minDuration : ∃ q, minDuration.toRat? = some q ∧ 1 / 2000 < q := by
  have hmin : (minDuration.toRat?.any fun q => decide (1 / 2000 < q)) = true := by decide +kernel
  obtain ⟨q, hq, hlow⟩ := (Option.any_eq_true _ _).mp hmin
  exact ⟨q, hq, of_decide_eq_true hlow⟩

theorem toRat?_maxDuration : maxDuration.toRat? = some 86400 := rfl

/-- A time lies between half a millisecond and a day. -/
theorem IsDuration.bounds (h : IsDuration x) :
    ∃ q, x.toRat? = some q ∧ 1 / 2000 < q ∧ q ≤ 86400 := by
  obtain ⟨low, hlow, hbound⟩ := exists_toRat?_minDuration
  obtain ⟨hmin, hmax⟩ := h
  obtain ⟨q, hq⟩ := Binary64.toRat?_of_between hlow toRat?_maxDuration (Binary64.le_of_lt hmin) hmax
  have hless := (Binary64.lt_iff hlow hq).mp hmin
  exact ⟨q, hq, hbound.trans hless, (Binary64.le_iff hq toRat?_maxDuration).mp hmax⟩

/-- A time that was read is within the bounds. -/
theorem isDuration_of_duration {text what : String} {verb : Option String}
    (h : duration text verb what = .ok x) : IsDuration x := by
  obtain ⟨low, hlow, -⟩ := exists_toRat?_minDuration
  unfold duration number at h
  cases hread : Number.readNumber text with
  | notANumber =>
      rw [hread] at h
      cases h
  | tooLarge =>
      rw [hread] at h
      cases h
  | number y =>
      rw [hread] at h
      simp only [bind, Except.bind] at h
      split at h
      · cases h
      · next hrange =>
          cases h
          obtain ⟨q, hq⟩ := Binary64.isFinite_iff.mp (Number.isFinite_of_readNumber hread)
          obtain ⟨hmin, hmax⟩ := not_or.mp hrange
          rw [Binary64.le_iff hq hlow, not_le] at hmin
          rw [Binary64.lt_iff toRat?_maxDuration hq, not_lt] at hmax
          exact ⟨(Binary64.lt_iff hlow hq).mpr hmin, (Binary64.le_iff hq toRat?_maxDuration).mpr hmax⟩

end Argument

/-- The taps that fit into a run time can be counted. -/
theorem Device.tapCount_of_isDuration {time delay : Binary64} (htime : Argument.IsDuration time)
    (hdelay : Argument.IsDuration delay) (count : Option Int) :
    ∃ n, tapCount count (some time) delay = .ok n := by
  obtain ⟨p, hp, hplow, hphigh⟩ := htime.bounds
  obtain ⟨q, hq, hqlow, -⟩ := hdelay.bounds
  have hppos : 0 < p := by linarith
  have hqpos : 0 < q := by linarith
  have hquotient : p / q ≤ 172800000 := by
    rw [div_le_iff₀ hqpos]
    linarith
  have hfinite : (Binary64.round (p / q)).isFinite = true := by
    refine Binary64.isFinite_round ?_
    rw [abs_of_pos (div_pos hppos hqpos), Binary64.overflowBound, Binary64.twoPow_eq]
    calc 2 * (p / q) + 1 ≤ 345600001 := by linarith
      _ < 2 ^ (30 : Int) := by norm_num
      _ ≤ 2 ^ (1024 : Int) := zpow_le_zpow_right₀ one_le_two (by decide)
  obtain ⟨n, hn⟩ := Binary64.truncate_of_isFinite hfinite
  unfold tapCount
  simp only [Binary64.isZero_of_pos hp hppos, Binary64.isZero_of_pos hq hqpos,
    Binary64.div_eq hp hq hppos hqpos, hn]
  exact ⟨_, rfl⟩

end InputScript
