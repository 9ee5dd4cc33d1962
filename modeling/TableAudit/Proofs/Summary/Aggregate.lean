import TableAudit.Proofs.Summary.Rate
import TableAudit.Proofs.Summary.Union

namespace TableAudit

namespace Summary

theorem rateOf_eq_ok {passed total : Int} (hpassed : passed ≤ total)
    (hrange : Rate.InRange total.toNat) :
    rateOf passed total = .ok (.ofCounts passed.toNat total.toNat) := by
  -- The equation of `rateOf` would be checked by evaluating the limit of floats.
  delta rateOf
  rw [Rate.ofRows_eq_ok (Int.toNat_le_toNat hpassed) hrange]

/-- With rows evaluated and no check left out, the rate is that of the rows that passed every
    check. -/
theorem passRate_of_evaluated (summary : Summary) (htotal : summary.rowCount ≠ 0)
    (hevaluated : ∀ outcome ∈ summary.outcomes.values, outcome.isUnevaluated = false) :
    summary.passRate =
      rateOf (summary.rowCount - summary.failingRows.length) summary.rowCount := by
  have hany : summary.outcomes.values.any Outcome.isUnevaluated = false := by
    rw [List.any_eq_false]
    intro outcome houtcome
    rw [hevaluated outcome houtcome]
    exact Bool.false_ne_true
  rw [passRate, if_neg htotal, hany, if_neg Bool.false_ne_true]

/-- A check without an evaluation leaves no row passed. -/
theorem passRate_of_unevaluated (summary : Summary)
    (hunevaluated : ∃ outcome ∈ summary.outcomes.values, outcome.isUnevaluated = true) :
    summary.passRate = .ok .zero := by
  obtain ⟨outcome, houtcome, hfailed⟩ := hunevaluated
  unfold passRate
  by_cases htotal : summary.rowCount = 0
  · have hall : summary.outcomes.values.all Outcome.passed = false := by
      rw [List.all_eq_false]
      refine ⟨outcome, houtcome, ?_⟩
      rw [(outcome.isUnevaluated_iff.mp hfailed).1]
      exact Bool.false_ne_true
    rw [if_pos htotal, hall]
    rfl
  · rw [if_neg htotal, List.any_eq_true.mpr ⟨outcome, houtcome, hfailed⟩]
    rfl

/-- Where every check was evaluated and none has a row, all rows passed. -/
theorem passRate_of_no_rows (summary : Summary) (htotal : summary.rowCount = 0)
    (hevaluated : ∀ outcome ∈ summary.outcomes.values, outcome.isUnevaluated = false) :
    summary.passRate = .ok .full := by
  have hall : summary.outcomes.values.all Outcome.passed = true := by
    rw [List.all_eq_true]
    intro outcome houtcome
    have hle := summary.total_le_rowCount houtcome
    have hnonneg := outcome.total_nonneg
    have hzero : outcome.total = 0 := by omega
    by_contra hfailed
    have := outcome.isUnevaluated_iff.mpr ⟨Bool.eq_false_of_not_eq_true hfailed, hzero⟩
    rw [hevaluated outcome houtcome] at this
    exact Bool.false_ne_true this
  rw [passRate, if_pos htotal, hall]
  rfl

theorem passRateOf_eq {summary : Summary} {check : String} {outcome : Outcome}
    (h : summary.outcome? check = some outcome) : summary.passRateOf check = outcome.passRate := by
  rw [passRateOf, outcomeOf, h]
  rfl

end Summary

open Summary

theorem Rate.zero_le (rate : Rate) : Rate.zero.le rate = true := by
  cases rate <;> simp [zero, le]

namespace Outcome

theorem passRate_of_no_rows {outcome : Outcome} (htotal : outcome.total = 0)
    (hevaluated : outcome.isUnevaluated = false) : outcome.passRate = .ok .full := by
  have hpassed : outcome.passed = true := by
    by_contra hfailed
    have := outcome.isUnevaluated_iff.mpr ⟨Bool.eq_false_of_not_eq_true hfailed, htotal⟩
    rw [hevaluated] at this
    exact Bool.false_ne_true this
  rw [passRate, if_pos htotal, hpassed]
  rfl

theorem passRate_of_rows {outcome : Outcome} (htotal : outcome.total ≠ 0)
    (hrange : Rate.InRange outcome.total.toNat) :
    outcome.passRate = .ok
      (.ofCounts (outcome.total - outcome.failureCount).toNat outcome.total.toNat) := by
  rw [passRate, if_neg htotal]
  exact rateOf_eq_ok (by omega) hrange

/-- A check has a rate whenever its number of rows is in range. -/
theorem exists_passRate {outcome : Outcome} (hrange : Rate.InRange outcome.total.toNat) :
    ∃ rate, outcome.passRate = .ok rate := by
  by_cases htotal : outcome.total = 0
  · exact ⟨_, if_pos htotal⟩
  · exact ⟨_, passRate_of_rows htotal hrange⟩

end Outcome

namespace Summary

/-- The rate of all checks is at most that of one check exactly when some check was not evaluated,
    the one check has no row, or the rate from the joint counts is at most that from its own. It is
    so when the check evaluated as many rows as any, and when its share of failing rows is at most
    the joint one, as far as floats hold the counts. -/
theorem passRate_le_passRateOf_iff {summary : Summary} {check : String} {outcome : Outcome}
    (houtcome : summary.outcome? check = some outcome)
    (hrange : Rate.InRange summary.rowCount.toNat) :
    ∃ whole part, summary.passRate = .ok whole ∧ summary.passRateOf check = .ok part ∧
      (whole.le part = true ↔
        (∃ other ∈ summary.outcomes.values, other.isUnevaluated = true) ∨ outcome.total = 0 ∨
          (Rate.ofCounts (summary.rowCount - summary.failingRows.length).toNat
              summary.rowCount.toNat).le
            (.ofCounts (outcome.total - outcome.failureCount).toNat outcome.total.toNat) = true) ∧
      (outcome.total = summary.rowCount → whole.le part = true) ∧
      (100 * summary.rowCount < 2 ^ 53 →
        summary.rowCount * outcome.failureCount ≤ outcome.total * summary.failingRows.length →
        whole.le part = true) := by
  have hmem := summary.mem_values_of_outcome? houtcome
  have hle := summary.total_le_rowCount hmem
  have hnonneg := outcome.total_nonneg
  have hpart := hrange.of_le (Int.toNat_le_toNat hle)
  rw [passRateOf_eq houtcome]
  by_cases hunevaluated : ∃ other ∈ summary.outcomes.values, other.isUnevaluated = true
  · obtain ⟨part, hrate⟩ := outcome.exists_passRate hpart
    refine ⟨.zero, part, summary.passRate_of_unevaluated hunevaluated, hrate, ?_⟩
    simp only [Rate.zero_le, hunevaluated, true_or, implies_true, and_self]
  have hevaluated : ∀ other ∈ summary.outcomes.values, other.isUnevaluated = false := by
    intro other hother
    exact Bool.eq_false_of_not_eq_true fun h => hunevaluated ⟨other, hother, h⟩
  have hfailing := summary.length_failingRows_le
  by_cases hempty : summary.rowCount = 0
  · have hzero : outcome.total = 0 := by omega
    refine ⟨.full, .full, summary.passRate_of_no_rows hempty hevaluated,
      outcome.passRate_of_no_rows hzero (hevaluated outcome hmem), ?_⟩
    have hrefl : Rate.full.le .full = true := by decide
    simp only [hrefl, hzero, true_or, or_true, implies_true, and_self]
  have hwhole : summary.passRate = .ok (.ofCounts
      (summary.rowCount - summary.failingRows.length).toNat summary.rowCount.toNat) := by
    rw [summary.passRate_of_evaluated hempty hevaluated]
    exact rateOf_eq_ok (by omega) hrange
  have hpos : 0 < summary.rowCount.toNat := by omega
  by_cases hzero : outcome.total = 0
  · refine ⟨_, .full, hwhole, outcome.passRate_of_no_rows hzero (hevaluated outcome hmem), ?_⟩
    have hpassed : (summary.rowCount - summary.failingRows.length).toNat ≤
        summary.rowCount.toNat := by omega
    have hfull := Rate.ofCounts_le_full hpos hpassed hrange
    simp only [hfull, hzero, true_or, or_true, implies_true, and_self]
  refine ⟨_, _, hwhole, outcome.passRate_of_rows hzero hpart, ?_, ?_, ?_⟩
  · simp only [hunevaluated, hzero, false_or]
  · intro hsame
    rw [hsame]
    apply Rate.ofCounts_le_ofCounts hpos
    have hcount := summary.failureCount_le_length_failingRows hmem
    omega
  · intro hexact hshare
    have hcount := outcome.failureCount_le_total
    refine Rate.ofCounts_le_of_share hpos (by omega) (by omega) (by omega) (by omega) (by omega) ?_
    zify
    rw [Int.toNat_of_nonneg (by omega), Int.toNat_of_nonneg (by omega),
      Int.toNat_of_nonneg (by omega), Int.toNat_of_nonneg (by omega)]
    linarith

/-- A check that failed its only row, beside one that passed two. -/
def lopsided : Summary where
  name := "set"
  outcomes := {
    entries := [
      ("a", ⟨false, [1], [.empty], "1 rows failed", 1, by decide, rfl⟩),
      ("b", ⟨true, [], [], Outcome.allPassed, 2, by decide, rfl⟩)] }
  elapsed := 0.0

/-- The rate of all checks may be the higher one: half of the two rows passed, but none of the
    one row that the first check evaluated. -/
theorem passRate_exceeds_passRateOf :
    lopsided.passRate = .ok (.tenths 500) ∧ lopsided.passRateOf "a" = .ok .zero ∧
      (Rate.tenths 500).le .zero = false := by
  have hrange {count : Nat} (h : count ≤ 2) : Rate.InRange count := by
    refine Rate.InRange.of_le ?_ h
    unfold Rate.InRange
    decide +kernel
  have hhalf : Rate.ofCounts 1 2 = .tenths 500 := by decide +kernel
  have hnone : Rate.ofCounts 0 1 = .zero := by decide +kernel
  have hfailing : lopsided.failingRows = [1] := by
    simp [failingRows, lopsided, Labelled.values, mergeRows]
  have hevaluated : ∀ outcome ∈ lopsided.outcomes.values, outcome.isUnevaluated = false := by
    decide
  refine ⟨?_, ?_, rfl⟩
  · have hcount : lopsided.rowCount = 2 := rfl
    rw [lopsided.passRate_of_evaluated (by decide) hevaluated, hfailing, hcount, ← hhalf]
    exact rateOf_eq_ok (by decide) (hrange (le_refl 2))
  · obtain ⟨outcome, houtcome, htotal, hcount⟩ : ∃ outcome, lopsided.outcome? "a" = some outcome ∧
        outcome.total = 1 ∧ outcome.failureCount = 1 := ⟨_, rfl, rfl, rfl⟩
    have hpart : Rate.InRange outcome.total.toNat := by
      rw [htotal]
      exact hrange (by decide)
    rw [passRateOf_eq houtcome, Outcome.passRate_of_rows (by omega) hpart, htotal, hcount, ← hnone]
    rfl

/-- The other check, which evaluated as many rows as any, has a rate no lower than all. -/
theorem passRate_le_passRateOf_iff_longest :
    ∃ outcome whole part, lopsided.outcome? "b" = some outcome ∧
      Rate.InRange lopsided.rowCount.toNat ∧ lopsided.passRate = .ok whole ∧
      lopsided.passRateOf "b" = .ok part ∧ whole.le part = true := by
  have hrange : Rate.InRange lopsided.rowCount.toNat := by
    unfold Rate.InRange
    decide +kernel
  obtain ⟨outcome, houtcome, htotal⟩ :
      ∃ outcome, lopsided.outcome? "b" = some outcome ∧ outcome.total = lopsided.rowCount :=
    ⟨_, rfl, rfl⟩
  obtain ⟨whole, part, hwhole, hpart, -, hlongest, -⟩ :=
    passRate_le_passRateOf_iff houtcome hrange
  exact ⟨outcome, whole, part, houtcome, hrange, hwhole, hpart, hlongest htotal⟩

end Summary

end TableAudit
