import Mathlib
import TableAudit.Decimal.Binary

namespace TableAudit.Decimal

theorem two_mul_le_of_roundDiv_le {num den k : Nat} (hden : 0 < den) (h : roundDiv num den ≤ k) :
    2 * num ≤ (2 * k + 1) * den := by
  have hmod := Nat.div_add_mod num den
  have hlt := Nat.mod_lt num hden
  have hfloor := Nat.mul_le_mul_left den ((div_le_roundDiv num den).trans h)
  unfold roundDiv at h
  dsimp only at h
  split at h
  · nlinarith
  · split at h
    · nlinarith
    · nlinarith

theorem le_two_mul_of_lt_roundDiv {num den k : Nat} (h : k < roundDiv num den) :
    (2 * k + 1) * den ≤ 2 * num := by
  have hmod := Nat.div_add_mod num den
  have hfloor := Nat.mul_div_le num den
  have hle := Nat.mul_le_mul_left den (Nat.le_of_lt_succ (h.trans_le (roundDiv_le_div_succ num den)))
  unfold roundDiv at h
  dsimp only at h
  split at h
  · have hsucc : den * (k + 1) ≤ den * (num / den) := Nat.mul_le_mul_left den h
    nlinarith
  · split at h
    · nlinarith
    · nlinarith

/-- A quotient half way between two whole numbers goes to the even one, whatever its parts are. -/
theorem roundDiv_of_half {num den k : Nat} (hden : 0 < den) (h : 2 * num = (2 * k + 1) * den) :
    roundDiv num den = k + k % 2 := by
  have hmod := Nat.div_add_mod num den
  have hlt := Nat.mod_lt num hden
  have hfloor : num / den = k := by
    apply Nat.div_eq_of_lt_le <;> nlinarith
  have htwice : 2 * (num % den) = den := by
    rw [hfloor] at hmod
    nlinarith
  unfold roundDiv
  simp only [htwice, hfloor, lt_irrefl, if_false]
  split <;> omega

/-- Rounding keeps the order of quotients. -/
theorem roundDiv_le_roundDiv {num den num' den' : Nat} (hden : 0 < den) (hden' : 0 < den')
    (h : num * den' ≤ num' * den) : roundDiv num den ≤ roundDiv num' den' := by
  by_contra hlt
  rw [Nat.not_le] at hlt
  -- both quotients must lie half way above the lower of the two roundings
  have hlow := two_mul_le_of_roundDiv_le hden' (Nat.le_refl (roundDiv num' den'))
  have hhigh := le_two_mul_of_lt_roundDiv hlt
  have hscaled := Nat.mul_le_mul_right den hlow
  have hscaled' := Nat.mul_le_mul_right den' hhigh
  have hhalf : 2 * num = (2 * roundDiv num' den' + 1) * den := by
    refine Nat.eq_of_mul_eq_mul_right hden' (le_antisymm ?_ hscaled')
    nlinarith
  have hhalf' : 2 * num' = (2 * roundDiv num' den' + 1) * den' := by
    refine Nat.eq_of_mul_eq_mul_right hden (le_antisymm hscaled ?_)
    nlinarith
  rw [roundDiv_of_half hden hhalf, ← roundDiv_of_half hden' hhalf'] at hlt
  exact lt_irrefl _ hlt

theorem roundDiv_le_of_le {num den k : Nat} (hden : 0 < den) (h : num ≤ k * den) :
    roundDiv num den ≤ k := by
  rw [← roundDiv_mul_self k 1 Nat.one_pos]
  exact roundDiv_le_roundDiv hden Nat.one_pos (by simpa using h)

theorem le_roundDiv_of_le {num den k : Nat} (hden : 0 < den) (h : k * den ≤ num) :
    k ≤ roundDiv num den := by
  rw [← roundDiv_mul_self k 1 Nat.one_pos]
  exact roundDiv_le_roundDiv Nat.one_pos hden (by simpa using h)

theorem cast_pow2 (n : Nat) : ((pow2 n : Nat) : ℚ) = 2 ^ n := by
  simp [pow2]

/-- The number that a binary fraction stands for. -/
def Dyadic.value (x : Dyadic) : ℚ :=
  x.mantissa * 2 ^ x.exponent

theorem Dyadic.den_pos (x : Dyadic) : 0 < x.den :=
  pow2_pos _

theorem two_zpow_eq (e : Int) : (2 : ℚ) ^ e = 2 ^ e.toNat / 2 ^ (-e).toNat := by
  rcases le_total 0 e with h | h
  · rw [Int.toNat_of_nonpos (neg_nonpos.mpr h), pow_zero, div_one, ← zpow_natCast,
      Int.toNat_of_nonneg h]
  · rw [Int.toNat_of_nonpos h, pow_zero, one_div, ← zpow_natCast,
      Int.toNat_of_nonneg (neg_nonneg.mpr h), zpow_neg, inv_inv]

theorem Dyadic.num_div_den (x : Dyadic) : (x.num : ℚ) / x.den = x.value := by
  unfold num den value
  rw [Nat.cast_mul, cast_pow2, cast_pow2, two_zpow_eq, mul_div_assoc]

theorem Dyadic.num_mul_den_le_iff (x y : Dyadic) :
    x.num * y.den ≤ y.num * x.den ↔ x.value ≤ y.value := by
  have hx : (0 : ℚ) < x.den := by exact_mod_cast x.den_pos
  have hy : (0 : ℚ) < y.den := by exact_mod_cast y.den_pos
  rw [← num_div_den, ← num_div_den, div_le_div_iff₀ hx hy]
  exact_mod_cast Iff.rfl

/-- A quotient in units of a power of two is again a quotient of natural numbers. -/
theorem scaled_eq (num den : Nat) (e : Int) :
    ((num * pow2 (-e).toNat : Nat) : ℚ) / (den * pow2 e.toNat : Nat) = num / den / 2 ^ e := by
  rw [Nat.cast_mul, Nat.cast_mul, cast_pow2, cast_pow2, two_zpow_eq, div_div_div_eq]

theorem log2_bounds {n : Nat} (h : 0 < n) : (2 : ℚ) ^ n.log2 ≤ n ∧ (n : ℚ) < 2 ^ (n.log2 + 1) :=
  ⟨by exact_mod_cast Nat.log2_self_le h.ne', by exact_mod_cast Nat.lt_log2_self⟩

/-- The first guess of the exponent is right, or one too large. -/
theorem guess_bounds {num den : Nat} (hnum : 0 < num) (hden : 0 < den) :
    (2 : ℚ) ^ ((num.log2 : Int) - den.log2 - 52 + 51) ≤ num / den ∧
      (num : ℚ) / den < 2 ^ ((num.log2 : Int) - den.log2 - 52 + 53) := by
  obtain ⟨hlow, hhigh⟩ := log2_bounds hnum
  obtain ⟨hlow', hhigh'⟩ := log2_bounds hden
  have hpos : (0 : ℚ) < den := by exact_mod_cast hden
  have hfirst : (num.log2 : Int) - den.log2 - 52 + 51 = (num.log2 : Int) - ((den.log2 + 1 : Nat) : Int) := by
    push_cast
    ring
  have hlast : (num.log2 : Int) - den.log2 - 52 + 53 = ((num.log2 + 1 : Nat) : Int) - (den.log2 : Int) := by
    push_cast
    ring
  constructor
  · rw [hfirst, zpow_sub₀ two_ne_zero, zpow_natCast, zpow_natCast,
      div_le_div_iff₀ (by positivity) hpos]
    exact mul_le_mul hlow hhigh'.le hpos.le (by positivity)
  · rw [hlast, zpow_sub₀ two_ne_zero, zpow_natCast, zpow_natCast,
      div_lt_div_iff₀ hpos (by positivity)]
    exact mul_lt_mul hhigh hlow' (by positivity) (by positivity)

theorem fits_iff (num den : Nat) (e : Int) (hden : 0 < den) :
    num * pow2 (-e).toNat < pow2 53 * (den * pow2 e.toNat) ↔ (num : ℚ) / den < 2 ^ 53 * 2 ^ e := by
  have hpos : (0 : ℚ) < (den * pow2 e.toNat : Nat) := by
    exact_mod_cast Nat.mul_pos hden (pow2_pos _)
  rw [← div_lt_iff₀ (by positivity), ← scaled_eq, div_lt_iff₀ hpos, ← cast_pow2]
  exact_mod_cast Iff.rfl

/-- The exponent of a quotient is the least at which it has no more than 53 digits before the
    point, unless that is less than the least exponent of a float. -/
theorem targetExponent_spec {num den : Nat} (hnum : 0 < num) (hden : 0 < den) :
    (num : ℚ) / den < 2 ^ 53 * 2 ^ targetExponent num den ∧ -1074 ≤ targetExponent num den ∧
      (targetExponent num den = -1074 ∨
        (2 : ℚ) ^ 52 * 2 ^ targetExponent num den ≤ num / den) := by
  obtain ⟨hlow, hhigh⟩ := guess_bounds hnum hden
  unfold targetExponent
  generalize (num.log2 : Int) - den.log2 - 52 = guess at hlow hhigh ⊢
  simp only [decide_eq_true_eq, fits_iff _ _ _ hden]
  have hadd (e : Int) (k : Nat) : (2 : ℚ) ^ (e + k) = 2 ^ k * 2 ^ e := by
    rw [zpow_add₀ two_ne_zero, zpow_natCast, mul_comm]
  have hfit : (num : ℚ) / den < 2 ^ 53 * 2 ^ guess := by
    rw [← hadd]
    exact_mod_cast hhigh
  -- raising an exponent to the least one leaves the quotient below the bound
  have hraise {e : Int} (h : (num : ℚ) / den < 2 ^ 53 * 2 ^ e) :
      (num : ℚ) / den < 2 ^ 53 * 2 ^ max e (-1074) := by
    refine h.trans_le ?_
    gcongr
    · norm_num
    · exact le_max_left _ _
  have hleast {e : Int} (h : (2 : ℚ) ^ 52 * 2 ^ e ≤ num / den) :
      max e (-1074) = -1074 ∨ (2 : ℚ) ^ 52 * 2 ^ max e (-1074) ≤ num / den := by
    rcases le_total e (-1074) with hle | hle
    · exact .inl (max_eq_right hle)
    · exact .inr (by rwa [max_eq_left hle])
  by_cases hbelow : (num : ℚ) / den < 2 ^ 53 * 2 ^ (guess - 1)
  · rw [if_pos hbelow]
    refine ⟨hraise hbelow, le_max_right _ _, hleast ?_⟩
    rw [← hadd]
    convert hlow using 2
    push_cast
    ring
  · rw [if_neg hbelow, if_pos hfit]
    refine ⟨hraise hfit, le_max_right _ _, hleast ?_⟩
    have hstep : (2 : ℚ) ^ 53 * 2 ^ (guess - 1) = 2 ^ 52 * 2 ^ guess := by
      rw [zpow_sub_one₀ two_ne_zero]
      ring
    rw [← hstep]
    exact not_lt.mp hbelow

section Nearest

variable {num den num' den' : Nat}

theorem value_nearest (num den : Nat) :
    (nearest num den).value =
      roundDiv (num * pow2 (-targetExponent num den).toNat)
        (den * pow2 (targetExponent num den).toNat) * 2 ^ targetExponent num den :=
  rfl

/-- The nearest binary fraction has at most 53 digits, and all of them unless it is tiny. -/
theorem value_nearest_bounds (hnum : 0 < num) (hden : 0 < den) :
    (nearest num den).value ≤ 2 ^ 53 * 2 ^ targetExponent num den ∧
      (targetExponent num den = -1074 ∨
        (2 : ℚ) ^ 52 * 2 ^ targetExponent num den ≤ (nearest num den).value) := by
  obtain ⟨hfit, -, hleast⟩ := targetExponent_spec hnum hden
  rw [value_nearest]
  generalize targetExponent num den = e at hfit hleast ⊢
  have hscale : 0 < den * pow2 e.toNat := Nat.mul_pos hden (pow2_pos _)
  have hcast : (0 : ℚ) < (den * pow2 e.toNat : Nat) := by exact_mod_cast hscale
  constructor
  · have hround : roundDiv (num * pow2 (-e).toNat) (den * pow2 e.toNat) ≤ 2 ^ 53 :=
      roundDiv_le_of_le hscale ((fits_iff num den e hden).mpr hfit).le
    gcongr
    exact_mod_cast hround
  · refine hleast.imp id fun hlow => ?_
    have hround : 2 ^ 52 ≤ roundDiv (num * pow2 (-e).toNat) (den * pow2 e.toNat) := by
      apply le_roundDiv_of_le hscale
      rw [← le_div_iff₀ (by positivity), ← scaled_eq, le_div_iff₀ hcast] at hlow
      exact_mod_cast hlow
    gcongr
    exact_mod_cast hround

/-- Rounding to binary fractions keeps the order of quotients. -/
theorem value_nearest_le_value_nearest (hnum : 0 < num) (hden : 0 < den) (hden' : 0 < den')
    (h : (num : ℚ) / den ≤ num' / den') :
    (nearest num den).value ≤ (nearest num' den').value := by
  have hpos : (0 : ℚ) < den := by exact_mod_cast hden
  have hpos' : (0 : ℚ) < den' := by exact_mod_cast hden'
  have hnum' : 0 < num' := by
    have hquot : (0 : ℚ) < num' / den' :=
      (div_pos (by exact_mod_cast hnum) hpos).trans_le h
    rw [div_pos_iff_of_pos_right hpos'] at hquot
    exact_mod_cast hquot
  obtain ⟨-, hleast, hlow⟩ := targetExponent_spec hnum hden
  obtain ⟨hfit', hleast', -⟩ := targetExponent_spec hnum' hden'
  obtain ⟨hhigh, -⟩ := value_nearest_bounds hnum hden
  obtain ⟨-, hlow'⟩ := value_nearest_bounds hnum' hden'
  have hstep {e e' : Int} (hlt : e < e') : (2 : ℚ) ^ 53 * 2 ^ e ≤ 2 ^ 52 * 2 ^ e' := by
    calc (2 : ℚ) ^ 53 * 2 ^ e = 2 ^ 52 * 2 ^ (e + 1) := by
          rw [zpow_add_one₀ two_ne_zero]
          ring
      _ ≤ 2 ^ 52 * 2 ^ e' := by
          gcongr
          · norm_num
          · omega
  rcases lt_trichotomy (targetExponent num den) (targetExponent num' den') with hlt | heq | hgt
  · have hfull := hlow'.resolve_left (by omega)
    exact hhigh.trans ((hstep hlt).trans hfull)
  · rw [value_nearest, value_nearest, heq]
    have hscaled : num * pow2 (-targetExponent num' den').toNat *
          (den' * pow2 (targetExponent num' den').toNat) ≤
        num' * pow2 (-targetExponent num' den').toNat *
          (den * pow2 (targetExponent num' den').toNat) := by
      rw [div_le_div_iff₀ hpos hpos'] at h
      have hcross : num * den' ≤ num' * den := by exact_mod_cast h
      calc _ = num * den' * (pow2 (-targetExponent num' den').toNat *
            pow2 (targetExponent num' den').toNat) := by ring
        _ ≤ num' * den * (pow2 (-targetExponent num' den').toNat *
            pow2 (targetExponent num' den').toNat) := Nat.mul_le_mul_right _ hcross
        _ = _ := by ring
    have hround := roundDiv_le_roundDiv (Nat.mul_pos hden (pow2_pos _))
      (Nat.mul_pos hden' (pow2_pos _)) hscaled
    gcongr
  · have hfull := hlow.resolve_left (by omega)
    exact absurd ((hfull.trans h).trans_lt hfit') (hstep hgt).not_gt

end Nearest

section Whole

variable {n : Nat}

theorem targetExponent_whole (hn : 0 < n) : -1074 < targetExponent n 1 := by
  obtain ⟨hfit, hleast, -⟩ := targetExponent_spec hn Nat.one_pos
  refine hleast.lt_of_ne fun heq => ?_
  rw [← heq, Nat.cast_one, div_one] at hfit
  have htiny : (2 : ℚ) ^ 53 * 2 ^ (-1074 : Int) ≤ 1 := by
    rw [← zpow_natCast, ← zpow_add₀ two_ne_zero]
    exact zpow_le_one_of_nonpos₀ one_le_two (by norm_num)
  have hone : (1 : ℚ) ≤ n := by exact_mod_cast hn
  exact absurd (hfit.trans_le htiny) (not_lt.mpr hone)

/-- A whole number of up to 53 digits is its own nearest binary fraction. -/
theorem value_nearest_whole (he : targetExponent n 1 ≤ 0) :
    (nearest n 1).value = n := by
  rw [value_nearest, Int.toNat_of_nonpos he, show 1 * pow2 0 = 1 from rfl]
  have hround := roundDiv_mul_self (n * pow2 (-targetExponent n 1).toNat) 1 Nat.one_pos
  rw [mul_one] at hround
  rw [hround, Nat.cast_mul, cast_pow2, ← zpow_natCast, Int.toNat_of_nonneg (neg_nonneg.mpr he),
    zpow_neg, mul_assoc, inv_mul_cancel₀ (zpow_ne_zero _ two_ne_zero), mul_one]

theorem targetExponent_nonpos_of_lt (hn : 0 < n) (hlt : n < 2 ^ 53) : targetExponent n 1 ≤ 0 := by
  obtain ⟨-, -, hlow⟩ := targetExponent_spec hn Nat.one_pos
  have hfull := hlow.resolve_left (targetExponent_whole hn).ne'
  rw [Nat.cast_one, div_one] at hfull
  by_contra hpos
  have hdouble : (2 : ℚ) ^ 1 ≤ 2 ^ targetExponent n 1 := by
    rw [← zpow_natCast]
    exact zpow_le_zpow_right₀ one_le_two (by omega)
  have hsmall : (n : ℚ) < 2 ^ 53 := by exact_mod_cast hlt
  nlinarith

/-- The binary fraction nearest to a whole number is whole. -/
theorem cast_num_div_den_nearest (n : Nat) :
    (((nearest n 1).num / (nearest n 1).den : Nat) : ℚ) = (nearest n 1).value := by
  rcases le_total 0 (targetExponent n 1) with he | he
  · have hden : (nearest n 1).den = 1 := by
      have hexponent : (nearest n 1).exponent = targetExponent n 1 := rfl
      rw [Dyadic.den, hexponent, Int.toNat_of_nonpos (neg_nonpos.mpr he)]
      rfl
    rw [← Dyadic.num_div_den, hden, Nat.div_one, Nat.cast_one, div_one]
  · have hvalue := value_nearest_whole he
    have hpos : (0 : ℚ) < (nearest n 1).den := by exact_mod_cast (nearest n 1).den_pos
    have hnum : (nearest n 1).num = n * (nearest n 1).den := by
      rw [← Dyadic.num_div_den, div_eq_iff hpos.ne'] at hvalue
      exact_mod_cast hvalue
    rw [hvalue, hnum, Nat.mul_div_cancel _ (nearest n 1).den_pos]

/-- Rounding moves a whole number by no more than one part in `2 ^ 53`. -/
theorem abs_value_nearest_sub_le (hn : 0 < n) : |(nearest n 1).value - n| ≤ n / 2 ^ 53 := by
  obtain ⟨-, -, hlow⟩ := targetExponent_spec hn Nat.one_pos
  have hfull := hlow.resolve_left (targetExponent_whole hn).ne'
  rw [value_nearest]
  have hscaled := scaled_eq n 1 (targetExponent n 1)
  rw [Nat.cast_one, div_one] at hscaled hfull
  generalize targetExponent n 1 = e at hscaled hfull ⊢
  have hden : 0 < 1 * pow2 e.toNat := Nat.mul_pos Nat.one_pos (pow2_pos _)
  have hunit : (0 : ℚ) < 2 ^ e := zpow_pos two_pos e
  have hpos : (0 : ℚ) < (1 * pow2 e.toNat : Nat) := by exact_mod_cast hden
  -- in units of the last digit, the rounding is at most half a unit away
  have hhigh := two_mul_le_of_roundDiv_le hden (Nat.le_refl (roundDiv (n * pow2 (-e).toNat) (1 * pow2 e.toNat)))
  have habove : (n : ℚ) / 2 ^ e ≤ roundDiv (n * pow2 (-e).toNat) (1 * pow2 e.toNat) + 1 / 2 := by
    rw [← hscaled, div_le_iff₀ hpos]
    have hcast : (2 : ℚ) * (n * pow2 (-e).toNat : Nat) ≤
        (2 * roundDiv (n * pow2 (-e).toNat) (1 * pow2 e.toNat) + 1) * (1 * pow2 e.toNat : Nat) := by
      exact_mod_cast hhigh
    linarith
  have hbelow : (roundDiv (n * pow2 (-e).toNat) (1 * pow2 e.toNat) : ℚ) ≤ n / 2 ^ e + 1 / 2 := by
    rw [← hscaled]
    rcases Nat.eq_zero_or_pos (roundDiv (n * pow2 (-e).toNat) (1 * pow2 e.toNat)) with hzero | hround
    · rw [hzero, Nat.cast_zero]
      positivity
    · obtain ⟨k, hk⟩ := Nat.exists_eq_succ_of_ne_zero hround.ne'
      have hlow := le_two_mul_of_lt_roundDiv (hk ▸ Nat.lt_succ_self k)
      have hcast : (2 * (k : ℚ) + 1) * (1 * pow2 e.toNat : Nat) ≤ 2 * (n * pow2 (-e).toNat : Nat) := by
        exact_mod_cast hlow
      rw [hk, Nat.cast_succ, ← sub_le_iff_le_add, le_div_iff₀ hpos]
      linarith
  rw [div_le_iff₀ hunit] at habove
  rw [← sub_le_iff_le_add, le_div_iff₀ hunit] at hbelow
  rw [abs_le, neg_le_sub_iff_le_add, sub_le_iff_le_add]
  constructor <;> · field_simp at hfull ⊢; nlinarith

end Whole

end TableAudit.Decimal
