import Mathlib
import TableAudit.Proofs.Summary.Union
import TableAudit.Report.Layout

namespace TableAudit

/-- The failing rows of an outcome with their values. -/
def Outcome.failures (outcome : Outcome) : List (Int × RowValues) :=
  outcome.rows.zip outcome.values

namespace Outcome

variable (outcome : Outcome)

theorem map_fst_failures : outcome.failures.map Prod.fst = outcome.rows :=
  List.map_fst_zip (le_of_eq ((firstFlaw_eq_none_iff _ _ _ _).mp outcome.consistent).1)

theorem length_failures : outcome.failures.length = outcome.failureCount := by
  rw [← List.length_map Prod.fst, map_fst_failures, failureCount]

end Outcome

namespace Report

/-- What a report shows of the failing rows of a check: rows at the beginning, rows at the end, and
    how many it hides between them. -/
structure Excerpt where
  first : List (Int × RowValues)
  hidden : Nat
  last : List (Int × RowValues)

namespace Excerpt

/-- The rows that are listed. -/
def listed (excerpt : Excerpt) : List (Int × RowValues) :=
  excerpt.first ++ excerpt.last

/-- A line for each row that is listed, and one that announces the hidden rows if there are any. -/
def lines (excerpt : Excerpt) : List Line :=
  excerpt.first.map failureLine ++
    (if excerpt.hidden = 0 then [] else [hiddenLine excerpt.hidden]) ++
      excerpt.last.map failureLine

/-- An excerpt with room for a number of rows at each end fits an outcome: it lists all failing rows
    if there is room for them, and otherwise fills both ends and counts the rows between them. -/
structure Fits (preview : Nat) (outcome : Outcome) (excerpt : Excerpt) : Prop where
  whole : outcome.failureCount ≤ 2 * preview →
    excerpt.listed = outcome.failures ∧ excerpt.hidden = 0
  ends : 2 * preview < outcome.failureCount →
    excerpt.first.length = preview ∧ excerpt.last.length = preview ∧
      excerpt.hidden = outcome.failureCount - 2 * preview ∧
      ∃ between, outcome.failures = excerpt.first ++ between ++ excerpt.last
  /-- No row is listed twice, and the rows ascend. -/
  ascending : (excerpt.listed.map Prod.fst).Pairwise (· < ·)
  complete : excerpt.listed.length + excerpt.hidden = outcome.failureCount
  bounded : excerpt.listed.length ≤ 2 * preview

/-- The excerpt of failing rows with room for a number of them at each end. -/
def of (preview : Nat) (failures : List (Int × RowValues)) : Excerpt :=
  if failures.length ≤ 2 * preview then ⟨failures, 0, []⟩
  else
    ⟨failures.take preview, failures.length - 2 * preview,
      failures.drop (failures.length - preview)⟩

variable {preview : Nat} {failures : List (Int × RowValues)}

theorem of_of_le (h : failures.length ≤ 2 * preview) : of preview failures = ⟨failures, 0, []⟩ :=
  if_pos h

theorem of_of_lt (h : 2 * preview < failures.length) :
    of preview failures =
      ⟨failures.take preview, failures.length - 2 * preview,
        failures.drop (failures.length - preview)⟩ :=
  if_neg (not_le.mpr h)

/-- The ends of too many rows leave the rows between them. -/
theorem exists_between (h : 2 * preview < failures.length) :
    ∃ between, failures =
      failures.take preview ++ between ++ failures.drop (failures.length - preview) := by
  have hends : preview ≤ failures.length - preview := by omega
  refine ⟨(failures.drop preview).take (failures.length - preview - preview), ?_⟩
  have hrest : failures.drop (failures.length - preview) =
      (failures.drop preview).drop (failures.length - preview - preview) := by
    rw [List.drop_drop, Nat.add_sub_cancel' hends]
  rw [hrest, List.append_assoc, List.take_append_drop, List.take_append_drop]

/-- What is listed are some of the failing rows, in their order. -/
theorem sublist_listed_of : (of preview failures).listed.Sublist failures := by
  rcases le_or_gt failures.length (2 * preview) with hfew | hmany
  · rw [of_of_le hfew]
    simp [listed]
  · obtain ⟨between, hbetween⟩ := exists_between hmany
    rw [of_of_lt hmany]
    conv_rhs => rw [hbetween]
    exact (List.sublist_append_left _ between).append (List.Sublist.refl _)

theorem fits_of (preview : Nat) (outcome : Outcome) :
    (of preview outcome.failures).Fits preview outcome := by
  have hlength := outcome.length_failures
  have hascending : ((of preview outcome.failures).listed.map Prod.fst).Pairwise (· < ·) := by
    have hrows : (outcome.failures.map Prod.fst).Pairwise (· < ·) := by
      rw [outcome.map_fst_failures]
      exact outcome.pairwise_rows
    exact hrows.sublist (sublist_listed_of.map Prod.fst)
  rcases le_or_gt outcome.failures.length (2 * preview) with hfew | hmany
  · rw [of_of_le hfew] at hascending ⊢
    refine ⟨fun _ => ⟨List.append_nil _, rfl⟩, fun hmany => by omega, hascending, ?_, ?_⟩
    · simpa [listed] using hlength
    · simpa [listed] using hfew
  · rw [of_of_lt hmany] at hascending ⊢
    have hfirst : (outcome.failures.take preview).length = preview :=
      List.length_take_of_le (by omega)
    have hlast : (outcome.failures.drop (outcome.failures.length - preview)).length = preview := by
      rw [List.length_drop]
      omega
    refine ⟨fun hfew => by omega, fun _ => ⟨hfirst, hlast, ?_, exists_between hmany⟩, hascending,
      ?_, ?_⟩
    · rw [hlength]
    · show _ + (outcome.failures.length - 2 * preview) = _
      rw [listed, List.length_append, hfirst, hlast, ← hlength]
      omega
    · rw [listed, List.length_append, hfirst, hlast]
      omega

/-- With room at both ends the lines of failing rows are those of their excerpt. -/
theorem failureLines_eq_lines_of (hroom : 0 < preview) :
    failureLines preview failures = (of preview failures).lines := by
  unfold failureLines
  rcases le_or_gt failures.length (2 * preview) with hfew | hmany
  · rw [if_pos (by omega), of_of_le hfew]
    simp [lines]
  · have hfirst : firstOf (preview : Int) failures = failures.take preview := by
      rw [firstOf, if_neg (not_lt.mpr (Int.natCast_nonneg preview)), Int.toNat_natCast]
    have hlast : lastOf (preview : Int) failures = failures.drop (failures.length - preview) := by
      rw [lastOf, if_pos (by exact_mod_cast hroom)]
      congr 1
      omega
    have hhidden : ((failures.length - 2 * preview : Nat) : Int) =
        failures.length - 2 * (preview : Int) := by omega
    rw [if_neg (by omega), of_of_lt hmany, hfirst, hlast, lines, if_neg (by simp; omega), hhidden]
    simp

end Excerpt

/-- The lines list the failing rows of an outcome as they should with room for a number of rows at
    each end. -/
def Lists (preview : Nat) (outcome : Outcome) (lines : List Line) : Prop :=
  ∃ excerpt : Excerpt, excerpt.Fits preview outcome ∧ lines = excerpt.lines

/-- Without room for a row only the number of the failing rows may be announced. -/
theorem length_le_one_of_lists {outcome : Outcome} {lines : List Line}
    (h : Lists 0 outcome lines) : lines.length ≤ 1 := by
  obtain ⟨excerpt, hfits, rfl⟩ := h
  have hnone : excerpt.listed = [] := List.length_eq_zero_iff.mp (Nat.le_zero.mp hfits.bounded)
  obtain ⟨hfirst, hlast⟩ := List.append_eq_nil_iff.mp hnone
  rw [Excerpt.lines, hfirst, hlast]
  split <;> simp

/-- The failing rows are listed as they should exactly if there is room for one at each end, or none
    to be listed. -/
theorem lists_failureLines_iff (preview : Nat) (outcome : Outcome) :
    Lists preview outcome (failureLines preview outcome.failures) ↔
      0 < preview ∨ outcome.rows = [] := by
  rcases Nat.eq_zero_or_pos preview with rfl | hroom
  · simp only [lt_irrefl, false_or]
    constructor
    · intro hlists
      by_contra hsome
      have hcount : 0 < outcome.failures.length := by
        rw [outcome.length_failures]
        exact List.length_pos_iff.mpr hsome
      -- the slice of the last rows from the end on is the whole list if no row is asked for
      have hall : (failureLines (0 : Nat) outcome.failures).length =
          outcome.failures.length + 1 := by
        rw [failureLines, if_neg (by simp only [Nat.cast_zero]; omega)]
        simp [firstOf, lastOf]
      have hone := length_le_one_of_lists hlists
      omega
    · intro hnone
      have hempty : outcome.failures = [] := by rw [Outcome.failures, hnone, List.zip_nil_left]
      refine ⟨Excerpt.of 0 outcome.failures, Excerpt.fits_of 0 outcome, ?_⟩
      rw [hempty]
      rfl
  · simp only [hroom, true_or, iff_true]
    exact ⟨Excerpt.of preview outcome.failures, Excerpt.fits_of preview outcome,
      Excerpt.failureLines_eq_lines_of hroom⟩

end Report

namespace Summary

open Report

theorem mem_ordered_iff {summary : Summary} {entry : String × Outcome} :
    entry ∈ summary.ordered ↔ entry ∈ summary.outcomes.entries :=
  List.mem_mergeSort

/-- Where a report shows a failed check, it lists its failing rows as it should with room for a
    number of them at each end, exactly if there is room for one or none has failed. -/
theorem summaryLines_lists_iff {summary : Summary} {name : String} {outcome : Outcome}
    (hentry : (name, outcome) ∈ summary.outcomes.entries) (hfailed : outcome.passed = false)
    (preview : Nat) :
    ∃ earlier later lines,
      summary.ordered = earlier ++ (name, outcome) :: later ∧
        summaryLines preview summary =
          headingLines summary ++
            earlier.flatMap (fun entry => outcomeLines preview entry.1 entry.2) ++
              statusLine name outcome :: lines ++
                later.flatMap (fun entry => outcomeLines preview entry.1 entry.2) ++
                  totalLines summary ∧
        (Lists preview outcome lines ↔ 0 < preview ∨ outcome.rows = []) := by
  obtain ⟨earlier, later, hplace⟩ := List.append_of_mem (mem_ordered_iff.mpr hentry)
  refine ⟨earlier, later, failureLines preview outcome.failures, hplace, ?_,
    lists_failureLines_iff preview outcome⟩
  have hlines : outcomeLines preview name outcome =
      statusLine name outcome :: failureLines preview outcome.failures := by
    rw [outcomeLines, hfailed]
    rfl
  simp only [summaryLines, hplace, List.flatMap_append, List.flatMap_cons, hlines,
    List.append_assoc, List.cons_append]

/-- A report on two failed checks, with room for one row at each end: the one with four failing
    rows. -/
theorem summaryLines_lists_four :
    let outcome : Outcome :=
      ⟨false, [1, 3, 4, 7], List.replicate 4 .empty, "4 rows failed", 7, by decide, by decide⟩
    let summary : Summary :=
      ⟨"set", ⟨[("a", .unevaluated "no column"), ("b", outcome)], by decide⟩, 0⟩
    ∃ earlier later lines,
      summary.ordered = earlier ++ ("b", outcome) :: later ∧
        summaryLines 1 summary =
          headingLines summary ++
            earlier.flatMap (fun entry => outcomeLines 1 entry.1 entry.2) ++
              statusLine "b" outcome :: lines ++
                later.flatMap (fun entry => outcomeLines 1 entry.1 entry.2) ++
                  totalLines summary ∧
        (Lists 1 outcome lines ↔ 0 < 1 ∨ outcome.rows = []) := by
  intro outcome summary
  exact summaryLines_lists_iff (.tail _ (.head _)) rfl 1

/-- With no room at all a report on one failing row announces that the row is hidden, and lists
    it. -/
theorem summaryLines_lists_hidden :
    let outcome : Outcome := ⟨false, [1], [.empty], "1 rows failed", 1, by decide, by decide⟩
    let summary : Summary := ⟨"set", ⟨[("a", outcome)], by decide⟩, 0⟩
    let lines := [hiddenLine 1, failureLine (1, .empty)]
    summaryLines 0 summary =
        headingLines summary ++ statusLine "a" outcome :: lines ++ totalLines summary ∧
      ¬ Lists 0 outcome lines := by
  intro outcome summary lines
  have hordered : summary.ordered = [("a", outcome)] := List.mergeSort_singleton _
  have hlines : summaryLines 0 summary =
      headingLines summary ++ statusLine "a" outcome :: lines ++ totalLines summary := by
    rw [summaryLines, hordered]
    rfl
  exact ⟨hlines, fun h => absurd (length_le_one_of_lists h) (by decide)⟩

end Summary

end TableAudit
