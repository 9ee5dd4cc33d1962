import TableAudit.Proofs.Labelled
import TableAudit.Proofs.Summary.Union

namespace TableAudit.Summary

variable (summary : Summary)

/-- The failing rows of all checks, one check after the other. -/
def listedFailures : List Int :=
  summary.outcomes.values.flatMap Outcome.rows

theorem totalFailures_eq : summary.totalFailures = summary.listedFailures.length := by
  unfold totalFailures listedFailures
  induction summary.outcomes.values with
  | nil => rfl
  | cons outcome rest ih =>
    rw [List.foldr_cons, ih, List.flatMap_cons, List.length_append]
    rfl

/-- The failing rows are those of all checks without their repetitions. -/
theorem failingRows_perm : summary.failingRows.Perm summary.listedFailures.dedup := by
  have hnodup : summary.failingRows.Nodup :=
    summary.pairwise_failingRows.imp fun h => Int.ne_of_lt h
  refine (List.perm_ext_iff_of_nodup hnodup (List.nodup_dedup _)).mpr fun row => ?_
  rw [mem_failingRows, List.mem_dedup, listedFailures, List.mem_flatMap]

theorem length_failingRows_le_totalFailures :
    summary.failingRows.length ≤ summary.totalFailures := by
  rw [summary.failingRows_perm.length_eq, totalFailures_eq]
  exact (List.dedup_sublist _).length_le

/-- No failing row is lost exactly if none is repeated. -/
theorem length_failingRows_eq_iff_nodup :
    summary.failingRows.length = summary.totalFailures ↔ summary.listedFailures.Nodup := by
  rw [summary.failingRows_perm.length_eq, totalFailures_eq, ← List.dedup_eq_self]
  exact ⟨(List.dedup_sublist _).eq_of_length, congrArg List.length⟩

variable {summary}

theorem failingRowsOf_eq_ok_iff {check : String} {rows : List Int} :
    summary.failingRowsOf check = .ok rows ↔
      ∃ outcome, (check, outcome) ∈ summary.outcomes.entries ∧ outcome.rows = rows := by
  simp only [Labelled.mem_entries_iff, failingRowsOf, outcomeOf, outcome?]
  cases summary.outcomes.get? check with
  | none => simp [Except.map]
  | some outcome => simp [Except.map]

/-- No row is among the failing rows of two checks. -/
def FailApart (summary : Summary) : Prop :=
  ∀ check other rows others, check ≠ other → summary.failingRowsOf check = .ok rows →
    summary.failingRowsOf other = .ok others → ∀ row ∈ rows, row ∉ others

theorem nodup_listedFailures_iff : summary.listedFailures.Nodup ↔ summary.FailApart := by
  have hentries : summary.listedFailures =
      summary.outcomes.entries.flatMap fun entry => entry.2.rows :=
    List.flatMap_map _ _ _
  have hrows : ∀ entry ∈ summary.outcomes.entries, entry.2.rows.Nodup := fun entry _ =>
    entry.2.pairwise_rows.imp fun h => Int.ne_of_lt h
  rw [hentries, List.nodup_flatMap, and_iff_right hrows]
  constructor
  · intro hpairs check other rows others hne hcheck hother row hrow hagain
    obtain ⟨outcome, hentry, rfl⟩ := failingRowsOf_eq_ok_iff.mp hcheck
    obtain ⟨found, hfound, rfl⟩ := failingRowsOf_eq_ok_iff.mp hother
    have hdiffer : (check, outcome) ≠ (other, found) := fun heq => hne (congrArg Prod.fst heq)
    have hsymm : Std.Symm (Function.onFun List.Disjoint fun entry : String × Outcome =>
      entry.2.rows) := ⟨fun _ _ h => h.symm⟩
    exact hpairs.forall hentry hfound hdiffer hrow hagain
  · intro hapart
    refine List.Nodup.pairwise_of_forall_ne summary.outcomes.nodup.of_map ?_
    rintro ⟨check, outcome⟩ hentry ⟨other, found⟩ hfound hdiffer row hrow hagain
    have hne : check ≠ other := fun heq =>
      hdiffer (List.inj_on_of_nodup_map summary.outcomes.nodup hentry hfound heq)
    exact hapart check other _ _ hne (failingRowsOf_eq_ok_iff.mpr ⟨outcome, hentry, rfl⟩)
      (failingRowsOf_eq_ok_iff.mpr ⟨found, hfound, rfl⟩) row hrow hagain

/-- The failing rows of a summary ascend strictly and are those that failed one of its checks. They
    are no more than the failing rows of its checks taken together, nor than the rows of its longest
    evaluation, and as many as the former exactly if no row failed two checks. -/
theorem failingRows_unite (summary : Summary) :
    summary.failingRows.Pairwise (· < ·) ∧
      (∀ row, row ∈ summary.failingRows ↔
        ∃ check rows, summary.failingRowsOf check = .ok rows ∧ row ∈ rows) ∧
      summary.failingRows.length ≤ summary.totalFailures ∧
      (summary.failingRows.length : Int) ≤ summary.rowCount ∧
      (summary.failingRows.length = summary.totalFailures ↔ summary.FailApart) := by
  refine ⟨summary.pairwise_failingRows, fun row => ?_, summary.length_failingRows_le_totalFailures,
    summary.length_failingRows_le, ?_⟩
  · rw [mem_failingRows]
    constructor
    · rintro ⟨outcome, houtcome, hrow⟩
      obtain ⟨⟨check, _⟩, hentry, rfl⟩ := List.mem_map.mp houtcome
      exact ⟨check, _, failingRowsOf_eq_ok_iff.mpr ⟨_, hentry, rfl⟩, hrow⟩
    · rintro ⟨check, _, hrows, hrow⟩
      obtain ⟨outcome, hentry, rfl⟩ := failingRowsOf_eq_ok_iff.mp hrows
      exact ⟨outcome, List.mem_map_of_mem hentry, hrow⟩
  · rw [length_failingRows_eq_iff_nodup, nodup_listedFailures_iff]

end TableAudit.Summary
