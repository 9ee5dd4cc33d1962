import TableAudit.Proofs.Outcome.Order
import TableAudit.Proofs.Summary.Union

namespace TableAudit

section Pairs

variable {α : Type} {items : List α} {a b : α}

/-- Of two items of a list one stands before the other. -/
theorem sublist_pair_or_swap (ha : a ∈ items) (hb : b ∈ items) (hne : a ≠ b) :
    [a, b].Sublist items ∨ [b, a].Sublist items := by
  obtain ⟨earlier, later, rfl⟩ := List.append_of_mem ha
  rcases List.mem_append.mp hb with hb | hb
  · have hlast : [a].Sublist (a :: later) := List.singleton_sublist.mpr List.mem_cons_self
    exact .inr ((List.singleton_sublist.mpr hb).append hlast)
  · rcases List.mem_cons.mp hb with rfl | hb
    · exact absurd rfl hne
    · have hpair : [a, b].Sublist (a :: later) := (List.singleton_sublist.mpr hb).cons_cons a
      exact .inl (hpair.trans (List.sublist_append_right _ _))

/-- Without repetitions no two items stand before each other. -/
theorem not_sublist_swap (hnodup : items.Nodup) (h : [a, b].Sublist items) :
    ¬ [b, a].Sublist items := by
  intro hswap
  induction items with
  | nil => cases h
  | cons first rest ih =>
    obtain ⟨hfirst, hrest⟩ := List.nodup_cons.mp hnodup
    cases h with
    | cons _ h =>
      cases hswap with
      | cons _ hswap => exact ih hrest h hswap
      | cons_cons _ _ => exact hfirst (h.subset (by simp))
    | cons_cons _ h =>
      cases hswap with
      | cons _ hswap => exact hfirst (hswap.subset (by simp))
      | cons_cons _ _ => exact hfirst (List.singleton_sublist.mp h)

end Pairs

namespace Outcome

theorem ComesBefore.trans {a b c : Outcome} (hab : a.ComesBefore b) (hbc : b.ComesBefore c) :
    a.ComesBefore c := by
  -- otherwise the last one would come before the first, or tie with it, and so before the second
  by_contra hac
  exact not_comesBefore_trans hac hbc.asymm hab

theorem Ties.trans {a b c : Outcome} (hab : a.Ties b) (hbc : b.Ties c) : a.Ties c :=
  ⟨hab.1.trans hbc.1, hab.2.trans hbc.2⟩

theorem isStrictWeakOrder_before :
    IsStrictWeakOrder Outcome (fun a b => a.before b = true) where
  irrefl a := by
    rw [before_iff]
    exact fun h => h.asymm h
  trans a b c := by
    simp only [before_iff]
    exact ComesBefore.trans
  incomp_trans a b c := by
    simp only [before_iff, ← ties_iff]
    exact Ties.trans

/-- A check that failed on some rows has a failing row. -/
theorem failureCount_pos {outcome : Outcome} (hfailed : outcome.passed = false)
    (htotal : outcome.total ≠ 0) : 0 < outcome.failureCount := by
  have hrows := ((firstFlaw_eq_none_iff _ _ _ _).mp outcome.consistent).2.2.2.2 hfailed
  exact List.length_pos_of_ne_nil fun hnone => htotal (hrows hnone)

end Outcome

namespace Summary

variable {summary : Summary} {listed : List (String × Outcome)}

/-- How a report arranges the entries of a summary. -/
structure Arranged (summary : Summary) (listed : List (String × Outcome)) : Prop where
  perm : listed.Perm summary.outcomes.entries
  failedFirst : listed.Pairwise fun a b => b.2.passed = false → a.2.passed = false
  mostFirst : listed.Pairwise fun a b =>
    a.2.passed = false → b.2.passed = false → b.2.failureCount ≤ a.2.failureCount
  unevaluatedLast : listed.Pairwise fun a b =>
    a.2.isUnevaluated = true → b.2.passed = false → b.2.isUnevaluated = true
  /-- Of entries that tie, the one that the summary has first is listed first. -/
  keepsTies : ∀ a b, [a, b].Sublist summary.outcomes.entries → a.2.Ties b.2 →
    [a, b].Sublist listed

/-- The order of reports with ties resolved: an entry comes before another, or ties with it and
    stands before it in the summary. -/
def Precedes (summary : Summary) (a b : String × Outcome) : Prop :=
  a.2.ComesBefore b.2 ∨ a.2.Ties b.2 ∧ [a, b].Sublist summary.outcomes.entries

theorem nodup_entries (summary : Summary) : summary.outcomes.entries.Nodup :=
  summary.outcomes.nodup.of_map

theorem Precedes.antisymm {a b : String × Outcome} (hab : summary.Precedes a b)
    (hba : summary.Precedes b a) : a = b := by
  rcases hab with hab | ⟨hties, hab⟩
  · rcases hba with hba | ⟨hties, -⟩
    · exact absurd hba hab.asymm
    · exact absurd hab ((Outcome.ties_iff _ _).mp hties).2
  · rcases hba with hba | ⟨-, hba⟩
    · exact absurd hba ((Outcome.ties_iff _ _).mp hties).2
    · exact absurd hba (not_sublist_swap summary.nodup_entries hab)

/-- Where a list is arranged like a report, what stands later does not come before. -/
theorem Arranged.not_comesBefore (h : summary.Arranged listed) {a b : String × Outcome}
    (hab : [a, b].Sublist listed) : ¬ b.2.ComesBefore a.2 := by
  have hfailed := List.pairwise_iff_forall_sublist.mp h.failedFirst hab
  have hmost := List.pairwise_iff_forall_sublist.mp h.mostFirst hab
  rintro (⟨hb, ha⟩ | ⟨hstatus, hcount⟩)
  · rw [hfailed hb] at ha
    cases ha
  · cases hb : b.2.passed with
    | false =>
      have hle := hmost (hstatus ▸ hb) hb
      omega
    | true =>
      -- a check that passed has no failing rows to count
      have hnone : b.2.failureCount = 0 := List.length_eq_zero_iff.mpr (b.2.rows_of_passed hb)
      have hnone' : a.2.failureCount = 0 :=
        List.length_eq_zero_iff.mpr (a.2.rows_of_passed (hstatus ▸ hb))
      omega

theorem Arranged.pairwise_precedes (h : summary.Arranged listed) :
    listed.Pairwise summary.Precedes := by
  have hnodup : listed.Nodup := h.perm.nodup_iff.mpr summary.nodup_entries
  rw [List.pairwise_iff_forall_sublist]
  intro a b hab
  by_cases hbefore : a.2.ComesBefore b.2
  · exact .inl hbefore
  have hties : a.2.Ties b.2 := (Outcome.ties_iff _ _).mpr ⟨hbefore, h.not_comesBefore hab⟩
  have ha : a ∈ summary.outcomes.entries := h.perm.mem_iff.mp (hab.subset (by simp))
  have hb : b ∈ summary.outcomes.entries := h.perm.mem_iff.mp (hab.subset (by simp))
  have hne : a ≠ b := by
    rintro rfl
    exact not_sublist_swap hnodup hab hab
  rcases sublist_pair_or_swap ha hb hne with hplace | hplace
  · exact .inr ⟨hties, hplace⟩
  · have hswap := h.keepsTies b a hplace ⟨hties.1.symm, hties.2.symm⟩
    exact absurd hswap (not_sublist_swap hnodup hab)

/-- There is one arrangement at most. -/
theorem Arranged.unique {others : List (String × Outcome)} (h : summary.Arranged listed)
    (hothers : summary.Arranged others) : listed = others :=
  List.Perm.eq_of_pairwise (fun _ _ _ _ => Precedes.antisymm) h.pairwise_precedes
    hothers.pairwise_precedes (h.perm.trans hothers.perm.symm)

section Sorting

variable (a b c : String × Outcome)

theorem not_before_iff : (!b.2.before a.2) = true ↔ ¬ b.2.ComesBefore a.2 := by
  rw [Bool.not_eq_true', ← Bool.not_eq_true, Outcome.before_iff]

theorem not_before_trans (hab : (!b.2.before a.2) = true) (hbc : (!c.2.before b.2) = true) :
    (!c.2.before a.2) = true := by
  rw [not_before_iff] at hab hbc ⊢
  exact Outcome.not_comesBefore_trans hbc hab

theorem not_before_total : (!b.2.before a.2 || !a.2.before b.2) = true := by
  rw [Bool.or_eq_true, not_before_iff, not_before_iff]
  by_cases hba : b.2.ComesBefore a.2
  · exact .inr hba.asymm
  · exact .inl hba

end Sorting

theorem pairwise_ordered (summary : Summary) :
    summary.ordered.Pairwise fun a b => ¬ b.2.ComesBefore a.2 :=
  (List.pairwise_mergeSort not_before_trans not_before_total _).imp (not_before_iff _ _).mp

theorem arranged_ordered (summary : Summary) : summary.Arranged summary.ordered where
  perm := List.mergeSort_perm _ _
  failedFirst := by
    refine summary.pairwise_ordered.imp fun {a b} hab hb => ?_
    by_contra ha
    exact hab (.inl ⟨hb, Bool.eq_true_of_not_eq_false ha⟩)
  mostFirst := by
    refine summary.pairwise_ordered.imp fun {a b} hab ha hb => ?_
    by_contra hcount
    exact hab (.inr ⟨hb.trans ha.symm, not_le.mp hcount⟩)
  unevaluatedLast := by
    refine summary.pairwise_ordered.imp fun {a b} hab ha hb => ?_
    obtain ⟨hfailed, htotal⟩ := a.2.isUnevaluated_iff.mp ha
    rw [Outcome.isUnevaluated_iff]
    refine ⟨hb, ?_⟩
    by_contra hrows
    have hcount := a.2.failureCount_le_total
    have hsome := Outcome.failureCount_pos hb hrows
    exact hab (.inr ⟨hb.trans hfailed.symm, by omega⟩)
  keepsTies a b hab hties := by
    refine List.pair_sublist_mergeSort not_before_trans not_before_total ?_ hab
    rw [not_before_iff]
    exact ((Outcome.ties_iff _ _).mp hties).2

/-- That an outcome comes before another is a strict weak order, and the report of a summary lists
    its checks arranged by it; any list of them that is so arranged is that of the report. -/
theorem ordered_iff_arranged :
    IsStrictWeakOrder Outcome (fun a b => a.before b = true) ∧
      ∀ (summary : Summary) (listed : List (String × Outcome)),
        summary.Arranged listed ↔ listed = summary.ordered := by
  refine ⟨Outcome.isStrictWeakOrder_before, fun summary listed => ⟨fun h => ?_, ?_⟩⟩
  · exact h.unique summary.arranged_ordered
  · rintro rfl
    exact summary.arranged_ordered

end Summary

end TableAudit
