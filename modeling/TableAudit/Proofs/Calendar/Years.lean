import Mathlib.Tactic.SplitIfs
import TableAudit.Calendar.Moment
import TableAudit.Proofs.Decimal.Nearest

namespace TableAudit

namespace Date

/-- The year of a day by the cycle and the day in it. January and February are the last months of a
    year that begins in March, and belong to the next year. -/
theorem year_ofMarchDays {days cycle : Int} {day : Nat} (hday : day < daysOfCycle)
    (hdays : days = cycle * daysOfCycle + day) :
    (ofMarchDays days).year =
      yearOfCycle day + 400 * cycle +
        if 306 ≤ dayOfYear day ∧ dayOfYear day ≤ 366 then 1 else 0 := by
  have hcycle : days / daysOfCycle = cycle ∧ (days % daysOfCycle).toNat = day := by
    unfold daysOfCycle at *
    omega
  unfold ofMarchDays
  rw [hcycle.1, hcycle.2]
  dsimp only
  split_ifs <;> omega

/-- From the first of January of the year 1 to the last of December of 9999. -/
theorem year_ofDays {days : Int} (hfirst : -719162 ≤ days) (hlast : days ≤ 2932896) :
    1 ≤ (ofDays days).year ∧ (ofDays days).year ≤ 9999 := by
  obtain ⟨cycle, day, hday, hdays⟩ : ∃ (cycle : Int) (day : Nat),
      day < daysOfCycle ∧ days + 719468 = cycle * daysOfCycle + day := by
    refine ⟨(days + 719468) / daysOfCycle, ((days + 719468) % daysOfCycle).toNat, ?_, ?_⟩ <;>
      unfold daysOfCycle <;> omega
  rw [ofDays, year_ofMarchDays hday hdays]
  unfold daysOfCycle at hday hdays
  have hyear : yearOfCycle day ≤ 399 := by
    unfold yearOfCycle
    omega
  have hcycle : 0 ≤ cycle ∧ cycle ≤ 24 := by omega
  have hbegin : cycle = 0 → yearOfCycle day = 0 → 306 ≤ dayOfYear day ∧ dayOfYear day ≤ 366 := by
    intro hcycle hzero
    have hlast : day ≤ 366 := by
      unfold yearOfCycle at hzero
      omega
    rw [dayOfYear, hzero]
    omega
  have hend : cycle = 24 → yearOfCycle day = 399 → dayOfYear day < 306 := by
    intro hcycle hlast
    rw [dayOfYear, hlast]
    omega
  split_ifs <;> omega

end Date

namespace Moment

/-- Rounding moves a time by no more than to the second before or after it. -/
theorem splitMicros_near (seconds : Float) (whole : Int) :
    whole - 1 ≤ (splitMicros seconds whole).1 ∧ (splitMicros seconds whole).1 ≤ whole + 1 := by
  unfold splitMicros
  dsimp only
  split_ifs <;> exact ⟨by omega, by omega⟩

theorem mantissa_lt_of_ofFloat {seconds : Float} {negative : Bool} {size : Decimal.Dyadic}
    (h : Decimal.Binary.ofFloat seconds = .finite negative size) : size.mantissa < 2 ^ 53 := by
  unfold Decimal.Binary.ofFloat at h
  generalize seconds.toBits.toNat = bits at h
  have hpow : Decimal.pow2 52 = 2 ^ 52 := by decide
  have hfraction : bits % Decimal.pow2 52 < 2 ^ 52 := hpow ▸ Nat.mod_lt _ (Decimal.pow2_pos _)
  dsimp only at h
  split_ifs at h <;> cases h <;> dsimp only <;> omega

/-- Rounding a fraction does not raise it above a number of microseconds. -/
theorem microsOf_le {size : Decimal.Dyadic} {bound : Nat} (hpos : 0 < bound) (hlt : bound < 2 ^ 53)
    (h : size.num % size.den * 1000000 ≤ bound * size.den) : microsOf size ≤ bound := by
  unfold microsOf
  dsimp only
  split_ifs with hzero
  · exact Nat.zero_le _
  · have hsize : (0 : ℚ) < size.den := by exact_mod_cast size.den_pos
    have hquotient :
        ((size.num % size.den * 1000000 : Nat) : ℚ) / size.den ≤ (bound : Nat) / (1 : Nat) := by
      rw [Nat.cast_one, div_one, div_le_iff₀ hsize]
      exact_mod_cast h
    have hvalue := Decimal.value_nearest_le_value_nearest (by omega) size.den_pos Nat.one_pos hquotient
    rw [Decimal.value_nearest_whole (Decimal.targetExponent_nonpos_of_lt hpos hlt)] at hvalue
    generalize Decimal.nearest (size.num % size.den * 1000000) size.den = scaled at hvalue
    have hscaled : (0 : ℚ) < scaled.den := by exact_mod_cast scaled.den_pos
    rw [← Decimal.Dyadic.num_div_den, div_le_iff₀ hscaled] at hvalue
    exact Decimal.roundDiv_le_of_le scaled.den_pos (by exact_mod_cast hvalue)

theorem den_le_of_late {size : Decimal.Dyadic} (hmantissa : size.mantissa < 2 ^ 53)
    (hlate : 2 ^ 37 ≤ size.num / size.den) : size.den ≤ 2 ^ 15 := by
  have hnum := (Nat.le_div_iff_mul_le size.den_pos).mp hlate
  have hpow (n : Nat) : Decimal.pow2 n = 2 ^ n := by simp [Decimal.pow2]
  unfold Decimal.Dyadic.num Decimal.Dyadic.den at *
  rw [hpow, hpow] at hnum
  rw [hpow]
  by_contra hlarge
  have hplaces : 15 < (-size.exponent).toNat :=
    (Nat.pow_lt_pow_iff_right (by decide)).mp (Nat.not_le.mp hlarge)
  have hwhole : size.exponent.toNat = 0 := by omega
  have hden : 2 ^ 16 ≤ 2 ^ (-size.exponent).toNat := Nat.pow_le_pow_right (by decide) hplaces
  rw [hwhole] at hnum
  omega

/-- So late in the years floats are multiples of 1 / 32768, and none is rounded to the next second. -/
theorem splitMicros_late {seconds : Float} {whole : Int}
    (hwhole : (Number.float seconds).truncate = .ok whole) (hlate : 137438953472 ≤ whole) :
    (splitMicros seconds whole).1 = whole := by
  simp only [Number.truncate] at hwhole
  unfold splitMicros
  cases hfloat : Decimal.Binary.ofFloat seconds with
  | nan =>
    rw [hfloat] at hwhole
    cases hwhole
  | infinite negative =>
    rw [hfloat] at hwhole
    cases hwhole
  | finite negative size =>
    rw [hfloat] at hwhole
    have hmantissa := mantissa_lt_of_ofFloat hfloat
    have hquotient : negative = false ∧ 2 ^ 37 ≤ size.num / size.den := by
      have htruncated : (if negative then -((size.num / size.den : Nat) : Int)
          else (size.num / size.den : Nat)) = whole := Except.ok.inj hwhole
      generalize size.num / size.den = quotient at htruncated ⊢
      cases negative with
      | true =>
        rw [if_pos rfl] at htruncated
        omega
      | false =>
        rw [if_neg Bool.false_ne_true] at htruncated
        exact ⟨rfl, by omega⟩
    obtain ⟨rfl, hquotient⟩ := hquotient
    have hmicros : microsOf size ≤ 999970 := by
      refine microsOf_le (by decide) (by decide) ?_
      have hden := den_le_of_late hmantissa hquotient
      have hrest := Nat.mod_lt size.num size.den_pos
      omega
    simp only [Bool.false_eq_true, if_false]
    rw [if_neg (by omega), if_neg (by omega)]

/-- A time within the years from 1 to 9999, but not at their very beginning, has a moment. -/
theorem exists_ofFloat {seconds : Float} {whole : Int}
    (hwhole : (Number.float seconds).truncate = .ok whole) (hfirst : -62135596800 < whole)
    (hlast : whole < 253402300800) : ∃ moment, ofFloat seconds = .ok moment := by
  have hnear := splitMicros_near seconds whole
  have hlate := splitMicros_late hwhole
  unfold ofFloat
  simp only [hwhole, bind, Except.bind]
  generalize splitMicros seconds whole = split at hnear hlate ⊢
  obtain ⟨second, micros⟩ := split
  dsimp only at hnear hlate ⊢
  have hclock : ¬ (second < -clockEnd ∨ clockEnd ≤ second) := by
    have : clockEnd = 9223372036854775808 := by decide
    omega
  have hyears : 1 ≤ (ofSeconds second micros).date.year ∧
      (ofSeconds second micros).date.year ≤ 9999 :=
    Date.year_ofDays (by omega) (by omega)
  have hcalendar : ¬ ((ofSeconds second micros).date.year - 1900 < -calendarEnd ∨
      calendarEnd ≤ (ofSeconds second micros).date.year - 1900) := by
    have : calendarEnd = 2147483648 := by decide
    omega
  have hdigits : ¬ ((ofSeconds second micros).date.year < 1 ∨
      9999 < (ofSeconds second micros).date.year) := by
    omega
  exact ⟨ofSeconds second micros, by rw [if_neg hclock, if_neg hcalendar, if_neg hdigits]; rfl⟩

end Moment

end TableAudit
