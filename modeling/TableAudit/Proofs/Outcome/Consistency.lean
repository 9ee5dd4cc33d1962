import TableAudit.Outcome.Basic

namespace TableAudit

/-- No row is misplaced exactly when the rows ascend strictly from the one before them and none
    comes after the last. -/
theorem firstMisplaced_eq_none_iff (total previous : Int) (rows : List Int) :
    firstMisplaced total previous rows = none ↔
      rows.Pairwise (· < ·) ∧ ∀ row ∈ rows, previous < row ∧ row ≤ total := by
  induction rows generalizing previous with
  | nil => simp [firstMisplaced]
  | cons row rest ih =>
    unfold firstMisplaced
    by_cases hrow : row ≤ previous ∨ total < row
    · rw [if_pos hrow]
      simp only [reduceCtorEq, List.mem_cons, forall_eq_or_imp, false_iff]
      intro h
      have := h.2.1
      omega
    · rw [if_neg hrow, ih, List.pairwise_cons]
      have hplace : previous < row ∧ row ≤ total := by omega
      constructor
      · rintro ⟨hasc, hrest⟩
        refine ⟨⟨fun later hlater => (hrest later hlater).1, hasc⟩, ?_⟩
        intro later hlater
        rcases List.mem_cons.1 hlater with rfl | hlater
        · exact hplace
        · have := hrest later hlater
          omega
      · rintro ⟨⟨hfirst, hasc⟩, hall⟩
        exact ⟨hasc, fun later hlater =>
          ⟨hfirst later hlater, (hall later (List.mem_cons_of_mem row hlater)).2⟩⟩

/-- The parts of an outcome fit together exactly when each failing row has its values, the rows
    ascend strictly within the rows evaluated, a passed outcome has no failing row, and a failed one
    without a failing row evaluated no row. -/
theorem firstFlaw_eq_none_iff (passed : Bool) (rows : List Int) (valueCount : Nat) (total : Int) :
    firstFlaw passed rows valueCount total = none ↔
      rows.length = valueCount ∧ rows.Pairwise (· < ·) ∧ (∀ row ∈ rows, 0 < row ∧ row ≤ total) ∧
        (passed = true → rows = []) ∧ (passed = false → rows = [] → total = 0) := by
  unfold firstFlaw
  by_cases hlength : rows.length = valueCount
  · rw [if_neg (not_not_intro hlength)]
    cases hmisplaced : firstMisplaced total 0 rows with
    | some row =>
      have hnot : ¬ (rows.Pairwise (· < ·) ∧ ∀ row ∈ rows, 0 < row ∧ row ≤ total) := by
        rw [← firstMisplaced_eq_none_iff, hmisplaced]
        simp
      simp only [reduceCtorEq, false_iff]
      exact fun h => hnot ⟨h.2.1, h.2.2.1⟩
    | none =>
      have hplaces := (firstMisplaced_eq_none_iff total 0 rows).1 hmisplaced
      cases passed <;> cases rows <;> simp_all
  · rw [if_pos hlength]
    simp [hlength]

namespace Outcome

section Make

variable {passed : Bool} {rows : List Int} {values : List RowValues} {message : String}
  {total : Int}

theorem make_of_flaw (htotal : 0 ≤ total) {flaw : Flaw}
    (hflaw : firstFlaw passed rows values.length total = some flaw) :
    make passed rows values message total = .error [⟨[], .stated flaw.message⟩] := by
  unfold make
  rw [dif_pos htotal]
  split
  · next other hother =>
    rw [hflaw, Option.some.injEq] at hother
    rw [hother]
  · next hnone =>
    rw [hflaw] at hnone
    cases hnone

theorem make_of_sound (htotal : 0 ≤ total)
    (hflaw : firstFlaw passed rows values.length total = none) :
    make passed rows values message total =
      .ok ⟨passed, rows, values, message, total, htotal, hflaw⟩ := by
  unfold make
  rw [dif_pos htotal]
  split
  · next flaw hsome =>
    rw [hflaw] at hsome
    cases hsome
  · rfl

end Make

/-- Parts are accepted exactly when the total is no less than zero and they have no flaw. -/
theorem exists_make_eq_ok_iff (passed : Bool) (rows : List Int) (values : List RowValues)
    (message : String) (total : Int) :
    (∃ outcome, make passed rows values message total = .ok outcome) ↔
      0 ≤ total ∧ firstFlaw passed rows values.length total = none := by
  by_cases htotal : 0 ≤ total
  · cases hflaw : firstFlaw passed rows values.length total with
    | some flaw =>
      rw [make_of_flaw htotal hflaw]
      simp
    | none =>
      rw [make_of_sound htotal hflaw]
      simp [htotal]
  · rw [make, dif_neg htotal]
    simp [htotal]

theorem parts_of_make {passed : Bool} {rows : List Int} {values : List RowValues}
    {message : String} {total : Int} {outcome : Outcome}
    (h : make passed rows values message total = .ok outcome) :
    outcome.passed = passed ∧ outcome.rows = rows ∧ outcome.values = values ∧
      outcome.message = message ∧ outcome.total = total := by
  obtain ⟨htotal, hflaw⟩ := (exists_make_eq_ok_iff passed rows values message total).1 ⟨outcome, h⟩
  rw [make_of_sound htotal hflaw] at h
  cases h
  exact ⟨rfl, rfl, rfl, rfl, rfl⟩

/-- The outcome of failing rows is always made when the rows ascend strictly within the rows
    evaluated and each has its values: its status comes from the rows and needs no care. -/
theorem ofFailures_eq_ok {rows : List Int} {values : List RowValues} {total : Int}
    (htotal : 0 ≤ total) (hlength : rows.length = values.length) (hasc : rows.Pairwise (· < ·))
    (hplace : ∀ row ∈ rows, 0 < row ∧ row ≤ total) :
    ∃ outcome, ofFailures rows values total = .ok outcome ∧
      outcome.passed = rows.isEmpty ∧ outcome.rows = rows ∧ outcome.values = values ∧
      outcome.message = messageFor rows.length ∧ outcome.total = total := by
  have hstatus : rows.isEmpty = false → rows = [] → total = 0 := by
    rintro hne rfl
    simp at hne
  have hflaw : firstFlaw rows.isEmpty rows values.length total = none :=
    (firstFlaw_eq_none_iff _ _ _ _).2 ⟨hlength, hasc, hplace, by simp, hstatus⟩
  obtain ⟨outcome, houtcome⟩ :=
    (exists_make_eq_ok_iff _ _ _ (messageFor rows.length) _).2 ⟨htotal, hflaw⟩
  exact ⟨outcome, houtcome, parts_of_make houtcome⟩

theorem parts_of_ofFailures {rows : List Int} {values : List RowValues} {total : Int}
    {outcome : Outcome} (h : ofFailures rows values total = .ok outcome) :
    outcome.total = total ∧ outcome.passed = rows.isEmpty := by
  obtain ⟨hpassed, -, -, -, htotal⟩ := parts_of_make h
  exact ⟨htotal, hpassed⟩

end Outcome

end TableAudit
