import Mathlib
import TableAudit.Proofs.Outcome.Consistency
import TableAudit.Subject.Question

namespace TableAudit

namespace Outcome

variable (outcome : Outcome)

theorem pairwise_rows : outcome.rows.Pairwise (· < ·) :=
  ((firstFlaw_eq_none_iff _ _ _ _).mp outcome.consistent).2.1

theorem place_of_mem_rows {row : Int} (h : row ∈ outcome.rows) : 0 < row ∧ row ≤ outcome.total :=
  ((firstFlaw_eq_none_iff _ _ _ _).mp outcome.consistent).2.2.1 row h

theorem rows_of_passed (h : outcome.passed = true) : outcome.rows = [] :=
  ((firstFlaw_eq_none_iff _ _ _ _).mp outcome.consistent).2.2.2.1 h

theorem isUnevaluated_iff :
    outcome.isUnevaluated = true ↔ outcome.passed = false ∧ outcome.total = 0 := by
  simp [isUnevaluated]

end Outcome

/-- Rows that ascend strictly within a range are no more than the range has. -/
theorem length_le_of_ascending {rows : List Int} {total : Int} (hascend : rows.Pairwise (· < ·))
    (hplace : ∀ row ∈ rows, 0 < row ∧ row ≤ total) : (rows.length : Int) ≤ total.toNat := by
  have hnodup : rows.Nodup := hascend.imp fun h => Int.ne_of_lt h
  let range := (List.range total.toNat).map fun index : Nat => (index : Int) + 1
  have hsubset : rows ⊆ range := by
    intro row hrow
    have hwithin := hplace row hrow
    exact List.mem_map.mpr ⟨(row - 1).toNat, List.mem_range.mpr (by omega), by omega⟩
  have hlength : rows.length ≤ range.length := (List.subperm_of_subset hnodup hsubset).length_le
  rw [List.length_map, List.length_range] at hlength
  exact_mod_cast hlength

namespace Summary

theorem mem_mergeRows {row : Int} (as bs : List Int) :
    row ∈ mergeRows as bs ↔ row ∈ as ∨ row ∈ bs := by
  induction as, bs using mergeRows.induct with
  | case1 bs => simp [mergeRows]
  | case2 as hne => cases as <;> simp [mergeRows]
  | case3 a as b bs hlt ih =>
    rw [mergeRows, if_pos hlt, List.mem_cons, ih, List.mem_cons (l := as), or_assoc]
  | case4 a as b bs hle hlt ih =>
    rw [mergeRows, if_neg hle, if_pos hlt, List.mem_cons, ih, List.mem_cons (l := bs),
      or_left_comm]
  | case5 a as b bs hle hge ih =>
    obtain rfl : a = b := le_antisymm (not_lt.mp hge) (not_lt.mp hle)
    rw [mergeRows, if_neg hle, if_neg hge, List.mem_cons, ih, List.mem_cons, List.mem_cons]
    tauto

theorem pairwise_mergeRows {as bs : List Int} (ha : as.Pairwise (· < ·))
    (hb : bs.Pairwise (· < ·)) : (mergeRows as bs).Pairwise (· < ·) := by
  induction as, bs using mergeRows.induct with
  | case1 bs => simpa only [mergeRows] using hb
  | case2 as hne => cases as <;> simpa only [mergeRows] using ha
  | case3 a as b bs hlt ih =>
    rw [mergeRows, if_pos hlt]
    obtain ⟨hfirst, hrest⟩ := List.pairwise_cons.mp ha
    refine List.pairwise_cons.mpr ⟨fun row hrow => ?_, ih hrest hb⟩
    rcases (mem_mergeRows _ _).mp hrow with hrow | hrow
    · exact hfirst row hrow
    · rcases List.mem_cons.mp hrow with rfl | hrow
      · exact hlt
      · exact Int.lt_trans hlt ((List.pairwise_cons.mp hb).1 row hrow)
  | case4 a as b bs hle hlt ih =>
    rw [mergeRows, if_neg hle, if_pos hlt]
    obtain ⟨hfirst, hrest⟩ := List.pairwise_cons.mp hb
    refine List.pairwise_cons.mpr ⟨fun row hrow => ?_, ih ha hrest⟩
    rcases (mem_mergeRows _ _).mp hrow with hrow | hrow
    · rcases List.mem_cons.mp hrow with rfl | hrow
      · exact hlt
      · exact Int.lt_trans hlt ((List.pairwise_cons.mp ha).1 row hrow)
    · exact hfirst row hrow
  | case5 a as b bs hle hge ih =>
    obtain rfl : a = b := le_antisymm (not_lt.mp hge) (not_lt.mp hle)
    rw [mergeRows, if_neg hle, if_neg hge]
    obtain ⟨hfirst, hrest⟩ := List.pairwise_cons.mp ha
    obtain ⟨hfirst', hrest'⟩ := List.pairwise_cons.mp hb
    refine List.pairwise_cons.mpr ⟨fun row hrow => ?_, ih hrest hrest'⟩
    rcases (mem_mergeRows _ _).mp hrow with hrow | hrow
    · exact hfirst row hrow
    · exact hfirst' row hrow

theorem mem_foldl_mergeRows {row : Int} (lists : List (List Int)) (merged : List Int) :
    row ∈ lists.foldl mergeRows merged ↔ row ∈ merged ∨ ∃ rows ∈ lists, row ∈ rows := by
  induction lists generalizing merged with
  | nil => simp
  | cons rows rest ih =>
    rw [List.foldl_cons, ih, mem_mergeRows]
    simp only [List.exists_mem_cons_iff, or_assoc]

theorem pairwise_foldl_mergeRows {lists : List (List Int)} {merged : List Int}
    (hmerged : merged.Pairwise (· < ·)) (hlists : ∀ rows ∈ lists, rows.Pairwise (· < ·)) :
    (lists.foldl mergeRows merged).Pairwise (· < ·) := by
  induction lists generalizing merged with
  | nil => exact hmerged
  | cons rows rest ih =>
    rw [List.forall_mem_cons] at hlists
    exact ih (pairwise_mergeRows hmerged hlists.1) hlists.2

variable (summary : Summary)

theorem mem_failingRows {row : Int} :
    row ∈ summary.failingRows ↔ ∃ outcome ∈ summary.outcomes.values, row ∈ outcome.rows := by
  rw [failingRows, mem_foldl_mergeRows]
  simp only [List.not_mem_nil, false_or, List.mem_map, exists_exists_and_eq_and]

theorem pairwise_failingRows : summary.failingRows.Pairwise (· < ·) := by
  apply pairwise_foldl_mergeRows List.Pairwise.nil
  intro rows hrows
  obtain ⟨outcome, -, rfl⟩ := List.mem_map.mp hrows
  exact outcome.pairwise_rows

theorem le_foldl_max {α : Type} [LinearOrder α] (totals : List α) (most : α) :
    most ≤ totals.foldl max most ∧ ∀ total ∈ totals, total ≤ totals.foldl max most := by
  induction totals generalizing most with
  | nil => simp
  | cons total rest ih =>
    rw [List.foldl_cons, List.forall_mem_cons]
    obtain ⟨hmost, hrest⟩ := ih (max most total)
    exact ⟨le_trans (le_max_left _ _) hmost, le_trans (le_max_right _ _) hmost, hrest⟩

theorem foldl_max_mem {α : Type} [LinearOrder α] (totals : List α) (most : α) :
    totals.foldl max most = most ∨ totals.foldl max most ∈ totals := by
  induction totals generalizing most with
  | nil => exact .inl rfl
  | cons total rest ih =>
    rw [List.foldl_cons]
    rcases ih (max most total) with h | h
    · rw [h]
      rcases le_total total most with hle | hle
      · exact .inl (max_eq_left hle)
      · rw [max_eq_right hle]
        exact .inr List.mem_cons_self
    · exact .inr (List.mem_cons_of_mem total h)

theorem rowCount_nonneg : 0 ≤ summary.rowCount :=
  (le_foldl_max _ _).1

theorem total_le_rowCount {outcome : Outcome} (h : outcome ∈ summary.outcomes.values) :
    outcome.total ≤ summary.rowCount :=
  (le_foldl_max _ _).2 _ (List.mem_map_of_mem h)

/-- The row count is that of some check, or there is no row at all. -/
theorem rowCount_attained :
    summary.rowCount = 0 ∨ ∃ outcome ∈ summary.outcomes.values, outcome.total = summary.rowCount :=
  (foldl_max_mem _ _).imp_right List.mem_map.mp

theorem place_of_mem_failingRows {row : Int} (h : row ∈ summary.failingRows) :
    0 < row ∧ row ≤ summary.rowCount := by
  obtain ⟨outcome, houtcome, hrow⟩ := summary.mem_failingRows.mp h
  have hplace := outcome.place_of_mem_rows hrow
  exact ⟨hplace.1, Int.le_trans hplace.2 (summary.total_le_rowCount houtcome)⟩

/-- No more rows fail than the longest evaluation has. -/
theorem length_failingRows_le : (summary.failingRows.length : Int) ≤ summary.rowCount := by
  have hlength := length_le_of_ascending summary.pairwise_failingRows
    fun row => summary.place_of_mem_failingRows
  have := summary.rowCount_nonneg
  omega

/-- A check fails no more rows than all checks together. -/
theorem failureCount_le_length_failingRows {outcome : Outcome}
    (h : outcome ∈ summary.outcomes.values) :
    outcome.failureCount ≤ summary.failingRows.length := by
  have hnodup : outcome.rows.Nodup := outcome.pairwise_rows.imp fun h => Int.ne_of_lt h
  have hsubset : outcome.rows ⊆ summary.failingRows := fun row hrow =>
    summary.mem_failingRows.mpr ⟨outcome, h, hrow⟩
  exact (List.subperm_of_subset hnodup hsubset).length_le

theorem mem_values_of_outcome? {check : String} {outcome : Outcome}
    (h : summary.outcome? check = some outcome) : outcome ∈ summary.outcomes.values := by
  obtain ⟨entry, hentry, rfl⟩ := Option.map_eq_some_iff.mp h
  exact List.mem_map_of_mem (List.mem_of_find?_eq_some hentry)

end Summary

theorem Outcome.failureCount_le_total (outcome : Outcome) :
    (outcome.failureCount : Int) ≤ outcome.total := by
  have hlength := length_le_of_ascending outcome.pairwise_rows
    fun row => outcome.place_of_mem_rows
  have := outcome.total_nonneg
  unfold Outcome.failureCount
  omega

end TableAudit
