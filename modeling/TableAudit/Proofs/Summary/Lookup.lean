import TableAudit.Proofs.Labelled
import TableAudit.Summary.Queries

namespace TableAudit

/-- A lookup that found no check of its name. -/
def NotFound {α : Type} (result : Except Fault α) : Prop :=
  ∃ check container, result = .error (.notFound check container)

section

variable {α β : Type}

theorem not_notFound_ok (value : α) : ¬ NotFound (.ok value) := by
  rintro ⟨check, container, h⟩
  cases h

/-- What comes after a lookup does not count where it looks nothing up. -/
theorem notFound_bind_iff {lookup : Except Fault α} {next : α → Except Fault β}
    (hnext : ∀ value, ¬ NotFound (next value)) : NotFound (lookup.bind next) ↔ NotFound lookup := by
  cases lookup with
  | error fault => simp [NotFound, Except.bind]
  | ok value => exact iff_of_false (hnext value) (not_notFound_ok value)

theorem notFound_map_iff {lookup : Except Fault α} {f : α → β} :
    NotFound (lookup.map f) ↔ NotFound lookup := by
  cases lookup with
  | error fault => simp [NotFound, Except.map]
  | ok value => exact iff_of_false (not_notFound_ok _) (not_notFound_ok value)

end

namespace Summary

variable (summary : Summary) (name : String)

theorem not_notFound_rateOf (passed total : Int) : ¬ NotFound (rateOf passed total) := by
  rintro ⟨check, container, h⟩
  -- The equation of `rateOf` would be checked by evaluating the limit of floats.
  delta rateOf at h
  generalize Rate.ofRows passed.toNat total.toNat = rate at h
  cases rate <;> cases h

theorem not_notFound_passRate (outcome : Outcome) : ¬ NotFound outcome.passRate := by
  unfold Outcome.passRate
  split
  · exact not_notFound_ok _
  · exact not_notFound_rateOf _ _

theorem notFound_outcomeOf_iff :
    NotFound (summary.outcomeOf name) ↔ name ∉ summary.outcomes.labels := by
  rw [← Labelled.get?_eq_none_iff, outcomeOf, outcome?]
  cases summary.outcomes.get? name with
  | none => exact iff_of_true ⟨_, _, rfl⟩ rfl
  | some outcome => exact iff_of_false (not_notFound_ok outcome) (Option.some_ne_none outcome)

theorem notFound_passRateOf_iff :
    NotFound (summary.passRateOf name) ↔ name ∉ summary.outcomes.labels := by
  rw [← notFound_outcomeOf_iff]
  exact notFound_bind_iff not_notFound_passRate

theorem notFound_failingRowsOf_iff :
    NotFound (summary.failingRowsOf name) ↔ name ∉ summary.outcomes.labels := by
  rw [← notFound_outcomeOf_iff]
  exact notFound_map_iff

end Summary

namespace CheckSet

variable {set : CheckSet}

theorem notFound_columnsOf_iff (set : CheckSet) (name : String) :
    NotFound (set.columnsOf name) ↔ name ∉ set.names := by
  unfold columnsOf names
  cases hfound : set.checks.find? fun check => check.name == name with
  | none =>
    refine iff_of_true ⟨_, _, rfl⟩ ?_
    rw [List.mem_map]
    rintro ⟨check, hcheck, hname⟩
    exact List.find?_eq_none.mp hfound check hcheck (beq_iff_eq.mpr hname)
  | some check =>
    have hname := List.find?_some hfound
    refine iff_of_false (not_notFound_ok check.columns) (not_not_intro (List.mem_map.mpr ?_))
    exact ⟨check, List.mem_of_find?_eq_some hfound, beq_iff_eq.mp hname⟩

/-- Under distinct names, the columns under the name of a check are its own. -/
theorem columnsOf_of_mem (hnames : set.names.Nodup) {check : Check} (hcheck : check ∈ set.checks) :
    set.columnsOf check.name = .ok check.columns := by
  unfold columnsOf
  cases hfound : set.checks.find? fun other => other.name == check.name with
  | none => exact absurd (beq_self_eq_true check.name) (List.find?_eq_none.mp hfound check hcheck)
  | some found =>
    have hname := List.find?_some hfound
    rw [List.inj_on_of_nodup_map hnames (List.mem_of_find?_eq_some hfound) hcheck
      (beq_iff_eq.mp hname)]

end CheckSet

end TableAudit
