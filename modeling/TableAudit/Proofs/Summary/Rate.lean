import TableAudit.Proofs.Decimal.Nearest
import TableAudit.Summary.Rate

namespace TableAudit.Rate

open TableAudit.Decimal

/-- Floats hold the hundredfold of a count, if not exactly. -/
def InRange (count : Nat) : Prop :=
  roundedWhole (100 * roundedWhole count) < limit

theorem rounded_value_zero (den : Nat) : (rounded 0 den).value = 0 := by
  simp [rounded, Dyadic.value]

theorem rounded_eq_nearest {num den : Nat} (h : 0 < num) : rounded num den = nearest num den := by
  rw [rounded, if_neg h.ne']

theorem rounded_value_nonneg (num den : Nat) : 0 ≤ (rounded num den).value := by
  unfold Dyadic.value
  positivity

theorem rounded_value_le {num den num' den' : Nat} (hden : 0 < den) (hden' : 0 < den')
    (h : (num : ℚ) / den ≤ num' / den') :
    (rounded num den).value ≤ (rounded num' den').value := by
  rcases Nat.eq_zero_or_pos num with rfl | hnum
  · rw [rounded_value_zero]
    exact rounded_value_nonneg num' den'
  · have hnum' : 0 < num' := by
      rw [Nat.pos_iff_ne_zero]
      rintro rfl
      have hpos : (0 : ℚ) < num / den := by positivity
      rw [Nat.cast_zero, zero_div] at h
      exact absurd h (not_le.mpr hpos)
    rw [rounded_eq_nearest hnum, rounded_eq_nearest hnum']
    exact value_nearest_le_value_nearest hnum hden hden' h

theorem cast_roundedWhole (n : Nat) : (roundedWhole n : ℚ) = (rounded n 1).value := by
  rcases Nat.eq_zero_or_pos n with rfl | hn
  · rw [rounded_value_zero]
    rfl
  · unfold roundedWhole
    rw [rounded_eq_nearest hn, cast_num_div_den_nearest]

theorem roundedWhole_le {m n : Nat} (h : m ≤ n) : roundedWhole m ≤ roundedWhole n := by
  have hvalue : (rounded m 1).value ≤ (rounded n 1).value := by
    apply rounded_value_le Nat.one_pos Nat.one_pos
    gcongr
  rw [← cast_roundedWhole, ← cast_roundedWhole] at hvalue
  exact_mod_cast hvalue

theorem roundedWhole_of_lt {n : Nat} (h : n < 2 ^ 53) : roundedWhole n = n := by
  rcases Nat.eq_zero_or_pos n with rfl | hn
  · rfl
  · have hvalue := cast_roundedWhole n
    rw [rounded_eq_nearest hn, value_nearest_whole (targetExponent_nonpos_of_lt hn h)] at hvalue
    exact_mod_cast hvalue

theorem roundedWhole_pos {n : Nat} (h : 0 < n) : 0 < roundedWhole n := by
  have hone : roundedWhole 1 = 1 := roundedWhole_of_lt (by norm_num)
  calc 0 < roundedWhole 1 := by rw [hone]; exact Nat.one_pos
    _ ≤ roundedWhole n := roundedWhole_le h

/-- Rounding moves a count by no more than one part in `2 ^ 53`. -/
theorem abs_roundedWhole_sub_le (n : Nat) : |(roundedWhole n : ℚ) - n| ≤ n / 2 ^ 53 := by
  rcases Nat.eq_zero_or_pos n with rfl | hn
  · simp [cast_roundedWhole, rounded_value_zero]
  · rw [cast_roundedWhole, rounded_eq_nearest hn]
    exact abs_value_nearest_sub_le hn

/-- The tenths of a hundredfold by a total. -/
def tenthsOf (hundredfold total : Nat) : Nat :=
  let share := rounded hundredfold total
  roundDiv (share.num * 10) share.den

theorem tenthsOf_le {num den num' den' : Nat} (hden : 0 < den) (hden' : 0 < den')
    (h : (num : ℚ) / den ≤ num' / den') : tenthsOf num den ≤ tenthsOf num' den' := by
  have hcross := (Dyadic.num_mul_den_le_iff _ _).mpr (rounded_value_le hden hden' h)
  apply roundDiv_le_roundDiv (Dyadic.den_pos _) (Dyadic.den_pos _)
  calc (rounded num den).num * 10 * (rounded num' den').den
      = (rounded num den).num * (rounded num' den').den * 10 := by ring
    _ ≤ (rounded num' den').num * (rounded num den).den * 10 := Nat.mul_le_mul_right 10 hcross
    _ = (rounded num' den').num * 10 * (rounded num den).den := by ring

theorem ofCounts_eq (passed total : Nat) :
    ofCounts passed total =
      if limit ≤ roundedWhole (100 * roundedWhole passed) then unbounded
      else tenths (tenthsOf (roundedWhole (100 * roundedWhole passed)) (roundedWhole total)) :=
  rfl

theorem le_unbounded (rate : Rate) : rate.le unbounded = true := by
  cases rate <;> rfl

/-- More passed rows among the same number make no lower rate. -/
theorem ofCounts_le_ofCounts {passed passed' total : Nat} (htotal : 0 < total)
    (h : passed ≤ passed') : (ofCounts passed total).le (ofCounts passed' total) = true := by
  have hhundredfold : roundedWhole (100 * roundedWhole passed) ≤
      roundedWhole (100 * roundedWhole passed') :=
    roundedWhole_le (Nat.mul_le_mul_left 100 (roundedWhole_le h))
  rw [ofCounts_eq, ofCounts_eq]
  by_cases hlimit : limit ≤ roundedWhole (100 * roundedWhole passed')
  · rw [if_pos hlimit]
    exact le_unbounded _
  · rw [if_neg hlimit, if_neg fun hle => hlimit (hle.trans hhundredfold)]
    have hpos := roundedWhole_pos htotal
    simp only [le, decide_eq_true_eq]
    apply tenthsOf_le hpos hpos
    gcongr

theorem InRange.of_le {m n : Nat} (hn : InRange n) (h : m ≤ n) : InRange m :=
  (roundedWhole_le (Nat.mul_le_mul_left 100 (roundedWhole_le h))).trans_lt hn

theorem InRange.roundedWhole_lt {n : Nat} (h : InRange n) : roundedWhole n < limit := by
  have herror := abs_roundedWhole_sub_le (100 * roundedWhole n)
  rw [abs_le] at herror
  have hle : (roundedWhole n : ℚ) ≤ roundedWhole (100 * roundedWhole n) := by
    push_cast at herror
    have hnonneg : (0 : ℚ) ≤ roundedWhole n := Nat.cast_nonneg _
    linarith [herror.1]
  have hlt : roundedWhole n ≤ roundedWhole (100 * roundedWhole n) := by exact_mod_cast hle
  exact hlt.trans_lt h

theorem ofRows_eq_ok {passed total : Nat} (hpassed : passed ≤ total) (hrange : InRange total) :
    ofRows passed total = .ok (ofCounts passed total) := by
  have htotal := hrange.roundedWhole_lt
  have hpart := (hrange.of_le hpassed).roundedWhole_lt
  exact if_neg (not_or.mpr ⟨not_le.mpr hpart, not_le.mpr htotal⟩)

theorem ofCounts_of_inRange {passed : Nat} (total : Nat) (h : InRange passed) :
    ofCounts passed total =
      tenths (tenthsOf (roundedWhole (100 * roundedWhole passed)) (roundedWhole total)) := by
  rw [ofCounts_eq, if_neg (not_le.mpr h)]

/-- The rate of all rows is full: the roundings of their number and of its hundredfold are too small
    to show in a tenth of a percent. -/
theorem ofCounts_self {total : Nat} (htotal : 0 < total) (hrange : InRange total) :
    ofCounts total total = full := by
  rw [ofCounts_of_inRange total hrange, full, tenths.injEq]
  have hpos := roundedWhole_pos htotal
  have hcast : (0 : ℚ) < roundedWhole total := by exact_mod_cast hpos
  have herror := abs_roundedWhole_sub_le (100 * roundedWhole total)
  rw [abs_le] at herror
  push_cast at herror
  apply le_antisymm
  · have hhigh : tenthsOf 10004 100 = 1000 := by rfl
    rw [← hhigh]
    apply tenthsOf_le hpos (by decide)
    rw [div_le_div_iff₀ hcast (by norm_num)]
    push_cast
    linarith [herror.2]
  · have hlow : tenthsOf 9996 100 = 1000 := by rfl
    rw [← hlow]
    apply tenthsOf_le (by decide) hpos
    rw [div_le_div_iff₀ (by norm_num) hcast]
    push_cast
    linarith [herror.1]

theorem ofCounts_le_full {passed total : Nat} (htotal : 0 < total) (h : passed ≤ total)
    (hrange : InRange total) : (ofCounts passed total).le full = true := by
  rw [← ofCounts_self htotal hrange]
  exact ofCounts_le_ofCounts htotal h

/-- Where floats hold all hundredfolds exactly, a larger share makes no lower rate. -/
theorem ofCounts_le_of_share {passed total passed' total' : Nat} (htotal : 0 < total)
    (htotal' : 0 < total') (hexact : 100 * total < 2 ^ 53) (hexact' : 100 * total' < 2 ^ 53)
    (hpassed : passed ≤ total) (hpassed' : passed' ≤ total')
    (hshare : passed * total' ≤ passed' * total) :
    (ofCounts passed total).le (ofCounts passed' total') = true := by
  have hwhole {n : Nat} (h : 100 * n < 2 ^ 53) :
      roundedWhole n = n ∧ roundedWhole (100 * n) = 100 * n :=
    ⟨roundedWhole_of_lt (by omega), roundedWhole_of_lt h⟩
  have hlimit : 2 ^ 53 < limit := by decide +kernel
  have hpart {n : Nat} (h : 100 * n < 2 ^ 53) : InRange n := by
    unfold InRange
    rw [(hwhole h).1, (hwhole h).2]
    exact h.trans hlimit
  have hsmall : 100 * passed < 2 ^ 53 := by omega
  have hsmall' : 100 * passed' < 2 ^ 53 := by omega
  rw [ofCounts_of_inRange _ (hpart hsmall), ofCounts_of_inRange _ (hpart hsmall'),
    (hwhole hsmall).1, (hwhole hsmall).2, (hwhole hsmall').1, (hwhole hsmall').2,
    (hwhole hexact).1, (hwhole hexact').1]
  simp only [le, decide_eq_true_eq]
  apply tenthsOf_le htotal htotal'
  have hcast : (0 : ℚ) < total := by exact_mod_cast htotal
  have hcast' : (0 : ℚ) < total' := by exact_mod_cast htotal'
  rw [div_le_div_iff₀ hcast hcast']
  have hcross : 100 * passed * total' ≤ 100 * passed' * total := by
    rw [mul_assoc, mul_assoc]
    exact Nat.mul_le_mul_left 100 hshare
  exact_mod_cast hcross

end TableAudit.Rate
