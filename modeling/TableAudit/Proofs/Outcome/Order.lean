import Mathlib.Tactic.Common
import TableAudit.Subject.Compare

namespace TableAudit

namespace Outcome

/-- The order of reports: a failed outcome is before a passed one, and of two with the same status
    the one with more failing rows is before the other. -/
def ComesBefore (a b : Outcome) : Prop :=
  a.passed = false ∧ b.passed = true ∨ a.passed = b.passed ∧ b.failureCount < a.failureCount

/-- The order of reports does not tell the outcomes apart. -/
def Ties (a b : Outcome) : Prop :=
  a.passed = b.passed ∧ a.failureCount = b.failureCount

theorem before_iff (a b : Outcome) : a.before b = true ↔ a.ComesBefore b := by
  unfold before ComesBefore
  cases a.passed <;> cases b.passed <;> simp

theorem ComesBefore.asymm {a b : Outcome} (h : a.ComesBefore b) : ¬ b.ComesBefore a := by
  rintro (⟨hb, ha⟩ | ⟨hstatus, hcount⟩) <;> rcases h with ⟨ha', hb'⟩ | ⟨hstatus', hcount'⟩
  · simp [ha] at ha'
  · simp [hb, ha] at hstatus'
  · simp [hb', ha'] at hstatus
  · omega

/-- Two outcomes tie, or one comes before the other. -/
theorem ties_iff (a b : Outcome) : a.Ties b ↔ ¬ a.ComesBefore b ∧ ¬ b.ComesBefore a := by
  unfold Ties ComesBefore
  cases a.passed <;> cases b.passed <;> simp <;> omega

/-- What does not come before an outcome does not come before a later one either. -/
theorem not_comesBefore_trans {a b c : Outcome} (hab : ¬ a.ComesBefore b) (hbc : ¬ b.ComesBefore c) :
    ¬ a.ComesBefore c := by
  unfold ComesBefore at *
  cases ha : a.passed <;> cases hb : b.passed <;> cases hc : c.passed <;> simp_all <;> omega

theorem ties_of_equals {a b : Outcome} (h : a.equals b = true) : a.Ties b := by
  simp only [equals, Bool.and_eq_true, beq_iff_eq] at h
  obtain ⟨⟨⟨⟨hpassed, hrows⟩, -⟩, -⟩, -⟩ := h
  exact ⟨hpassed, congrArg List.length hrows⟩

/-- The laws by which four comparisons of two outcomes are one order. -/
structure Lawful (holds : Comparison → Outcome → Outcome → Prop) (a b : Outcome) : Prop where
  less_iff_greater : holds .less a b ↔ holds .greater b a
  lessEqual_iff_greaterEqual : holds .lessEqual a b ↔ holds .greaterEqual b a
  lessEqual_iff_not_less : holds .lessEqual a b ↔ ¬ holds .less b a
  not_both_greater : ¬ (holds .greater a b ∧ holds .greater b a)

/-- A comparison of two outcomes holds. Outcomes that are one are equal without being looked at. -/
def Holds (same : Bool) (op : Comparison) (a b : Outcome) : Prop :=
  Subject.compares op same (.outcome a) (.outcome b) = .ok true

theorem holds_iff (op : Comparison) (a b : Outcome) :
    Holds false op a b ↔
      match op with
      | .less => a.ComesBefore b
      | .lessEqual => a.ComesBefore b ∨ a.equals b = true
      | .greater => ¬ a.ComesBefore b ∧ ¬ a.equals b = true
      | .greaterEqual => ¬ a.ComesBefore b := by
  unfold Holds Subject.compares
  cases op <;> simp [compares, ← before_iff]

theorem lawful_of_same (a b : Outcome) : Lawful (Holds true) a b where
  less_iff_greater := by simp [Holds, Subject.compares]
  lessEqual_iff_greaterEqual := by simp [Holds, Subject.compares]
  lessEqual_iff_not_less := by simp [Holds, Subject.compares]
  not_both_greater := by simp [Holds, Subject.compares]

/-- Outcomes of which one comes before the other are compared lawfully: they are not equal. -/
theorem lawful_of_not_ties {a b : Outcome} (h : ¬ a.Ties b) : Lawful (Holds false) a b := by
  have hforth : ¬ a.equals b = true := mt ties_of_equals h
  have hback : ¬ b.equals a = true := fun hequal =>
    h ⟨(ties_of_equals hequal).1.symm, (ties_of_equals hequal).2.symm⟩
  have hone : a.ComesBefore b ↔ ¬ b.ComesBefore a := by
    refine ⟨ComesBefore.asymm, fun hnot => ?_⟩
    by_contra hneither
    exact h ((ties_iff a b).mpr ⟨hneither, hnot⟩)
  constructor <;> simp [holds_iff, hforth, hback, hone]

/-- Of two outcomes that tie neither is before the other, so equality alone decides. -/
theorem lawful_iff_of_ties {a b : Outcome} (h : a.Ties b) :
    Lawful (Holds false) a b ↔ a.equals b = true ∧ b.equals a = true := by
  obtain ⟨hforth, hback⟩ := (ties_iff a b).mp h
  constructor
  · intro hlawful
    have hless := hlawful.less_iff_greater
    have hgreater := hlawful.lessEqual_iff_greaterEqual
    simp only [holds_iff, hforth, hback] at hless hgreater
    exact ⟨by tauto, by tauto⟩
  · rintro ⟨hab, hba⟩
    constructor <;> simp only [holds_iff, hforth, hback, hab, hba] <;> tauto

/-- Which outcome is less than another is as in the order of reports, and being greater or equal is
    its complement, which is total and transitive. The four comparisons of two outcomes are one
    order exactly if the outcomes are one, or do not tie unless they are equal. -/
theorem compares_lawful_iff (same : Bool) (a b : Outcome) :
    (Holds false .less a b ↔ a.ComesBefore b) ∧
      (Holds false .greaterEqual a b ↔ ¬ a.ComesBefore b) ∧
      (Holds false .greaterEqual a b ∨ Holds false .greaterEqual b a) ∧
      (∀ c, Holds false .greaterEqual a b → Holds false .greaterEqual b c →
        Holds false .greaterEqual a c) ∧
      (Lawful (Holds same) a b ↔
        same = true ∨ (a.Ties b → a.equals b = true ∧ b.equals a = true)) := by
  refine ⟨holds_iff .less a b, holds_iff .greaterEqual a b, ?_, fun c => ?_, ?_⟩
  · simp only [holds_iff]
    by_contra hboth
    obtain ⟨hab, hba⟩ := not_or.mp hboth
    exact ComesBefore.asymm (not_not.mp hab) (not_not.mp hba)
  · simp only [holds_iff]
    exact not_comesBefore_trans
  · cases same with
    | true => simp only [lawful_of_same, true_or]
    | false =>
      simp only [Bool.false_eq_true, false_or]
      by_cases hties : a.Ties b
      · simp only [lawful_iff_of_ties hties, hties, true_implies]
      · simp only [lawful_of_not_ties hties, hties, false_implies]

/-- Two checks that miss different columns have outcomes that tie: each is greater than the other,
    neither is less than the other or equal to it, and the one is not at most the other. -/
theorem compares_both_greater :
    let a := unevaluated "Required columns not found: x"
    let b := unevaluated "Required columns not found: y"
    Holds false .greater a b ∧ Holds false .greater b a ∧ ¬ Holds false .less a b ∧
      ¬ Holds false .lessEqual a b ∧ Holds false .greaterEqual b a ∧
      ¬ Lawful (Holds false) a b := by
  intro a b
  have hab : Holds false .greater a b := by cbv
  have hba : Holds false .greater b a := by cbv
  refine ⟨hab, hba, ?_, ?_, ?_, fun hlawful => hlawful.not_both_greater ⟨hab, hba⟩⟩
  · unfold Holds
    cbv
    simp
  · unfold Holds
    cbv
    simp
  · cbv

end Outcome

end TableAudit
