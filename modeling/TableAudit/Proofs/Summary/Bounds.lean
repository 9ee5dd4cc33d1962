import TableAudit.Proofs.Labelled
import TableAudit.Proofs.Summary.Aggregate

namespace TableAudit

/-- A way to compute a rate from the number of rows that passed and the number of all rows. -/
abbrev Rating :=
  Int → Int → Except Fault Rate

namespace Rating

/-- The rate rounded once, to the nearest tenth of a percent. There is none of no rows. -/
def exact : Rating := fun passed total =>
  if total = 0 then .error (.raised (.of .zeroDivisionError "division by zero"))
  else .ok (.tenths (Decimal.roundDiv (1000 * passed.toNat) total.toNat))

/-- A rating is proper for a number of rows: some of them have a rate of at most full, and all of
    them a full one. -/
def Proper (rating : Rating) (total : Int) : Prop :=
  ∀ passed, 0 ≤ passed → passed ≤ total →
    ∃ tenths ≤ 1000, rating passed total = .ok (.tenths tenths) ∧ (passed = total → tenths = 1000)

theorem proper_exact {total : Int} (htotal : 0 < total) : exact.Proper total := by
  intro passed _ hle
  have hpositive : 0 < total.toNat := by omega
  refine ⟨_, ?_, if_neg htotal.ne', ?_⟩
  · apply Decimal.roundDiv_le_of_le hpositive
    exact Nat.mul_le_mul_left 1000 (Int.toNat_le_toNat hle)
  · rintro rfl
    exact Decimal.roundDiv_mul_self 1000 _ hpositive

/-- The rating in floats is proper for numbers in their range. -/
theorem proper_rateOf {total : Int} (htotal : 0 < total) (hrange : Rate.InRange total.toNat) :
    Proper Summary.rateOf total := by
  intro passed _ hle
  have hpassed := Int.toNat_le_toNat hle
  have hpositive : 0 < total.toNat := by omega
  have hbounded := Rate.ofCounts_le_full hpositive hpassed hrange
  have hself := Rate.ofCounts_self hpositive hrange
  have hfinite := Rate.ofCounts_of_inRange total.toNat (hrange.of_le hpassed)
  refine ⟨_, ?_, (Summary.rateOf_eq_ok hle hrange).trans (congrArg _ hfinite), ?_⟩
  · rw [hfinite] at hbounded
    simpa [Rate.le, Rate.full] using hbounded
  · rintro rfl
    rw [hfinite] at hself
    simpa [Rate.full] using hself

end Rating

/-- What a rate rests on, by the outcomes that it covers. It is zero if one of them was not
    evaluated, and full if they all passed without a row to be counted; otherwise it is computed
    once, from a number of passed rows among a positive number of rows. -/
inductive Rests (covered : List Outcome) (rate : Rating → Except Fault Rate) : Prop
  | unevaluated (hsome : ∃ outcome ∈ covered, outcome.isUnevaluated = true)
      (hrate : ∀ rating, rate rating = .ok .zero)
  | rowless (hpassed : ∀ outcome ∈ covered, outcome.passed = true)
      (hrate : ∀ rating, rate rating = .ok .full)
  | counts {passed total : Int} (hevaluated : ∀ outcome ∈ covered, outcome.isUnevaluated = false)
      (hnonneg : 0 ≤ passed) (hle : passed ≤ total) (hpositive : 0 < total)
      (hlongest : ∃ outcome ∈ covered, outcome.total = total)
      (hall : (∀ outcome ∈ covered, outcome.passed = true) → passed = total)
      (hrate : ∀ rating, rate rating = rating passed total)

/-- A rate is one that outcomes may have: it lies between zero and full, is full if all passed, and
    zero if one failed without a row. -/
structure Fair (covered : List Outcome) (result : Except Fault Rate) : Prop where
  bounded : ∃ tenths ≤ 1000, result = .ok (.tenths tenths)
  full : (∀ outcome ∈ covered, outcome.passed = true) → result = .ok .full
  zero : (∃ outcome ∈ covered, outcome.passed = false ∧ outcome.total = 0) → result = .ok .zero

theorem Rests.fair {covered : List Outcome} {rate : Rating → Except Fault Rate}
    (h : Rests covered rate) {rating : Rating}
    (hproper : ∀ outcome ∈ covered, 0 < outcome.total → rating.Proper outcome.total) :
    Fair covered (rate rating) := by
  cases h with
  | unevaluated hsome hrate =>
    rw [hrate]
    refine ⟨⟨0, Nat.zero_le _, rfl⟩, fun hpassed => ?_, fun _ => rfl⟩
    obtain ⟨outcome, houtcome, hunevaluated⟩ := hsome
    have hfailed := (outcome.isUnevaluated_iff.mp hunevaluated).1
    rw [hpassed outcome houtcome] at hfailed
    cases hfailed
  | rowless hpassed hrate =>
    rw [hrate]
    refine ⟨⟨1000, le_refl _, rfl⟩, fun _ => rfl, ?_⟩
    rintro ⟨outcome, houtcome, hfailed, -⟩
    rw [hpassed outcome houtcome] at hfailed
    cases hfailed
  | counts hevaluated hnonneg hle hpositive hlongest hall hrate =>
    obtain ⟨longest, hlongest, rfl⟩ := hlongest
    obtain ⟨tenths, hmost, hresult, hfull⟩ := hproper longest hlongest hpositive _ hnonneg hle
    rw [hrate, hresult]
    refine ⟨⟨tenths, hmost, rfl⟩, fun hpassed => ?_, ?_⟩
    · rw [hfull (hall hpassed)]
      rfl
    · rintro ⟨outcome, houtcome, hfailed⟩
      have hunevaluated := outcome.isUnevaluated_iff.mpr hfailed
      rw [hevaluated outcome houtcome] at hunevaluated
      cases hunevaluated

/-- The rate of a check by any rating. -/
def Outcome.passRateBy (rating : Rating) (outcome : Outcome) : Except Fault Rate :=
  if outcome.total = 0 then .ok (if outcome.passed then .full else .zero)
  else rating (outcome.total - outcome.failureCount) outcome.total

theorem Outcome.rests_passRateBy (outcome : Outcome) :
    Rests [outcome] fun rating => outcome.passRateBy rating := by
  have hcount := outcome.failureCount_le_total
  have hnonneg := outcome.total_nonneg
  unfold passRateBy
  by_cases htotal : outcome.total = 0
  · simp only [if_pos htotal]
    cases hpassed : outcome.passed with
    | true => exact .rowless (by simpa using hpassed) fun _ => rfl
    | false =>
      have hunevaluated := outcome.isUnevaluated_iff.mpr ⟨hpassed, htotal⟩
      exact .unevaluated (by simpa using hunevaluated) fun _ => rfl
  · simp only [if_neg htotal]
    refine .counts ?_ (by omega) (by omega) (by omega) (by simp) ?_ fun _ => rfl
    · simp [isUnevaluated, htotal]
    · intro hall
      have hrows := outcome.rows_of_passed (hall outcome (by simp))
      simp [failureCount, hrows]

namespace Summary

/-- The rate of a summary by any rating. -/
def passRateBy (rating : Rating) (summary : Summary) : Except Fault Rate :=
  let outcomes := summary.outcomes.values
  let total := summary.rowCount
  if total = 0 then .ok (if outcomes.all Outcome.passed then .full else .zero)
  else if outcomes.any Outcome.isUnevaluated then .ok .zero
  else rating (total - summary.failingRows.length) total

theorem failingRows_of_passed {summary : Summary}
    (h : ∀ outcome ∈ summary.outcomes.values, outcome.passed = true) :
    summary.failingRows = [] := by
  rw [List.eq_nil_iff_forall_not_mem]
  intro row hrow
  obtain ⟨outcome, houtcome, hrow⟩ := summary.mem_failingRows.mp hrow
  rw [outcome.rows_of_passed (h outcome houtcome)] at hrow
  cases hrow

theorem rests_passRateBy (summary : Summary) :
    Rests summary.outcomes.values fun rating => summary.passRateBy rating := by
  have hcount := summary.length_failingRows_le
  have hnonneg := summary.rowCount_nonneg
  unfold passRateBy
  by_cases htotal : summary.rowCount = 0
  · simp only [if_pos htotal]
    cases hpassed : summary.outcomes.values.all Outcome.passed with
    | true => exact .rowless (List.all_eq_true.mp hpassed) fun _ => rfl
    | false =>
      obtain ⟨outcome, houtcome, hfailed⟩ := List.all_eq_false.mp hpassed
      have hle := summary.total_le_rowCount houtcome
      have hzero : outcome.total = 0 := by
        have := outcome.total_nonneg
        omega
      refine .unevaluated ⟨outcome, houtcome, ?_⟩ fun _ => rfl
      exact outcome.isUnevaluated_iff.mpr ⟨Bool.eq_false_of_not_eq_true hfailed, hzero⟩
  · simp only [if_neg htotal]
    cases hany : summary.outcomes.values.any Outcome.isUnevaluated with
    | true => exact .unevaluated (List.any_eq_true.mp hany) fun _ => rfl
    | false =>
      have hevaluated : ∀ outcome ∈ summary.outcomes.values, outcome.isUnevaluated = false :=
        fun outcome houtcome =>
          Bool.eq_false_of_not_eq_true (List.any_eq_false.mp hany outcome houtcome)
      refine .counts hevaluated (by omega) (by omega) (by omega)
        (summary.rowCount_attained.resolve_left htotal) (fun hall => ?_) fun _ => rfl
      rw [failingRows_of_passed hall]
      simp

/-- The rate of all checks or of one, by any rating. -/
def rateBy (summary : Summary) (rating : Rating) : Option String → Except Fault Rate
  | none => summary.passRateBy rating
  | some check => (summary.outcomeOf check).bind (Outcome.passRateBy rating)

/-- The outcomes that the rate of all checks or of one covers. -/
def covered (summary : Summary) : Option String → List Outcome
  | none => summary.outcomes.values
  | some check => (summary.outcome? check).toList

theorem rests_rateBy (summary : Summary) {name : Option String}
    (hname : ∀ check ∈ name, check ∈ summary.outcomes.labels) :
    Rests (summary.covered name) fun rating => summary.rateBy rating name := by
  cases name with
  | none => exact summary.rests_passRateBy
  | some check =>
    have hfound := mt (summary.outcomes.get?_eq_none_iff check).mp (not_not.mpr (hname check rfl))
    obtain ⟨outcome, houtcome⟩ := Option.ne_none_iff_exists'.mp hfound
    simp only [covered, rateBy, outcomeOf, outcome?, houtcome]
    exact outcome.rests_passRateBy

theorem mem_values_of_covered {summary : Summary} {name : Option String} {outcome : Outcome}
    (h : outcome ∈ summary.covered name) : outcome ∈ summary.outcomes.values := by
  cases name with
  | none => exact h
  | some check => exact summary.mem_values_of_outcome? (Option.mem_toList.mp h)

/-- The rate of all checks, or of one that is there, is computed from counts only if there are rows,
    and then from no more passed rows than rows. If it is computed exactly it lies between zero and
    full, and so it does in floats as long as the counts are in their range; it is full where all
    the checks it covers passed, and zero where one of them failed without a row. -/
theorem rate_within (summary : Summary) (name : Option String)
    (hname : ∀ check ∈ name, check ∈ summary.outcomes.labels) :
    Rests (summary.covered name) (fun rating => summary.rateBy rating name) ∧
      Fair (summary.covered name) (summary.rateBy .exact name) ∧
      (Rate.InRange summary.rowCount.toNat →
        Fair (summary.covered name) (summary.rateBy rateOf name)) ∧
      summary.rateBy rateOf name = name.elim summary.passRate summary.passRateOf := by
  have hrests := summary.rests_rateBy hname
  refine ⟨hrests, hrests.fair fun outcome _ => Rating.proper_exact, fun hrange => ?_, ?_⟩
  · refine hrests.fair fun outcome houtcome hpositive => Rating.proper_rateOf hpositive ?_
    have hle := summary.total_le_rowCount (mem_values_of_covered houtcome)
    exact hrange.of_le (Int.toNat_le_toNat hle)
  · cases name <;> rfl

/-- One of three rows failed, and another check was not evaluated. -/
theorem rate_within_of_check :
    let summary : Summary := ⟨"set",
      ⟨[("one", ⟨false, [1], [.empty], "1 rows failed", 3, by decide, rfl⟩),
        ("skipped", .unevaluated "no column")], by decide⟩, 0.0⟩
    (∀ check ∈ some "one", check ∈ summary.outcomes.labels) ∧
      summary.rateBy .exact (some "one") = .ok (.tenths 667) ∧
      Fair (summary.covered (some "one")) (summary.rateBy .exact (some "one")) := by
  intro summary
  have hname : ∀ check ∈ some "one", check ∈ summary.outcomes.labels := by decide
  exact ⟨hname, rfl, (summary.rate_within (some "one") hname).2.1⟩

end Summary

end TableAudit
