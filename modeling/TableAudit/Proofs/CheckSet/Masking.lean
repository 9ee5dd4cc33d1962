import TableAudit.Proofs.CheckSet.Courses
import TableAudit.Proofs.CheckSet.Modes
import TableAudit.Proofs.Summary.Lookup

namespace TableAudit

/-- The check, run by itself, passes whatever went before. -/
def Check.PassesIn {σ : Type} (check : Check) (around : Surroundings σ) : Prop :=
  ∀ state, ∃ outcome, (check.inquire.run around state).1 = .ok outcome ∧ outcome.passed = true

/-- The names that are reported as failed are those under which an outcome failed. -/
theorem Summary.mem_failedChecks_iff (summary : Summary) (name : String) :
    name ∈ summary.failedChecks ↔
      ∃ outcome, summary.outcome? name = some outcome ∧ outcome.passed = false := by
  simp only [failedChecks, List.mem_map, List.mem_filter, Bool.not_eq_true', Prod.exists,
    exists_and_right, exists_eq_right, Labelled.mem_entries_iff, outcome?]

namespace CheckSet

variable {σ : Type} {around : Surroundings σ}

/-- The last check of a name. -/
def lastOf (set : CheckSet) (name : String) : Option Check :=
  set.checks.reverse.find? fun check => check.name == name

theorem lastOf_eq_none_iff (set : CheckSet) (name : String) :
    set.lastOf name = none ↔ name ∉ set.names := by
  simp [lastOf, names, List.find?_eq_none]

/-- Without repeated names, every check is the last of its name. -/
theorem lastOf_name {set : CheckSet} (hnames : set.names.Nodup) {check : Check}
    (hcheck : check ∈ set.checks) : set.lastOf check.name = some check := by
  cases hfound : set.lastOf check.name with
  | none =>
    exact absurd (List.mem_map_of_mem hcheck) ((set.lastOf_eq_none_iff check.name).mp hfound)
  | some last =>
    have hname : last.name = check.name := by simpa using List.find?_some hfound
    have hlast : last ∈ set.checks := List.mem_reverse.mp (List.mem_of_find?_eq_some hfound)
    rw [List.inj_on_of_nodup_map hnames hlast hcheck hname]

/-- A failure is masked: some check does not pass, but all that are the last of their names do. -/
def Masked (set : CheckSet) (around : Surroundings σ) : Prop :=
  (∃ check ∈ set.checks, ¬ check.PassesIn around) ∧
    ∀ name check, set.lastOf name = some check → check.PassesIn around

/-- Nothing is masked where no name is repeated. -/
theorem not_masked_of_nodup {set : CheckSet} (hnames : set.names.Nodup) (around : Surroundings σ) :
    ¬ set.Masked around := by
  rintro ⟨⟨check, hcheck, hfails⟩, hlast⟩
  exact hfails (hlast check.name check (lastOf_name hnames hcheck))

/-- Looking for a name among checks and among the outcomes beside their names gives a check and
    its outcome. -/
theorem rel_find?_zip {related : Check → Outcome → Prop} {checks : List Check}
    {outcomes : List Outcome} (h : List.Forall₂ related checks outcomes) (name : String) :
    Option.Rel related (checks.find? fun check => check.name == name)
      ((((checks.map Check.name).zip outcomes).find? fun entry => entry.1 == name).map
        Prod.snd) := by
  induction h with
  | nil => exact .none
  | @cons check outcome checks outcomes hfirst _ ih =>
    rw [List.map_cons, List.zip_cons_cons]
    by_cases hname : check.name = name
    · rw [List.find?_cons_of_pos (by simpa using hname), List.find?_cons_of_pos (by simpa using hname)]
      exact .some hfirst
    · rw [List.find?_cons_of_neg (by simpa using hname), List.find?_cons_of_neg (by simpa using hname)]
      exact ih

/-- Under a name stands the outcome of the last check of that name. -/
theorem rel_lastOf {related : Check → Outcome → Prop} {set : CheckSet} {outcomes : List Outcome}
    (h : List.Forall₂ related set.checks outcomes) (name : String) :
    Option.Rel related (set.lastOf name)
      ((Labelled.ofList (set.names.zip outcomes)).get? name) := by
  have hlength : set.names.length = outcomes.length := by
    rw [names, List.length_map, h.length_eq]
  have hreverse := rel_find?_zip (List.forall₂_reverse_iff.mpr h) name
  rw [Labelled.get?_ofList, List.zip, List.reverse_zipWith hlength, names, ← List.map_reverse]
  exact hreverse

/-- In surroundings that answer alike, an outcome of a run stands for the check by itself. -/
theorem forall₂_alone {set : CheckSet} (hsteady : around.Steady set.Requests) {mode : Mode}
    {state : σ} {outcomes : Labelled Outcome}
    (h : (set.runIn around mode state).1 = .ok outcomes) :
    ∃ found, outcomes = Labelled.ofList (set.names.zip found) ∧
      List.Forall₂ (fun check outcome => check ∈ set.checks ∧
        ∀ other, (check.inquire.run around other).1 = .ok outcome) set.checks found := by
  rw [runIn_eq_firstFault hsteady mode state state] at h
  rcases firstFault_cases around set.checks state with
    ⟨found, hresult, hfound⟩ | ⟨_, _, _, _, hresult, -⟩
  · rw [hresult] at h
    cases h
    refine ⟨found, rfl, List.forall₂_iff_zip.mpr ⟨hfound.length_eq, fun {check outcome} hmem => ?_⟩⟩
    have hcheck := (List.of_mem_zip hmem).1
    have hwithin : check.inquire.Within set.Requests :=
      (Check.within_inquire check).mono fun request hrequest => ⟨check, hcheck, hrequest⟩
    refine ⟨hcheck, fun other => ?_⟩
    rw [Inquiry.run_eq_of_agree hsteady hwithin other state]
    exact (List.forall₂_iff_zip.mp hfound).2 hmem
  · rw [hresult] at h
    cases h

theorem passesIn_iff_of_run {check : Check} {outcome : Outcome}
    (h : ∀ state, (check.inquire.run around state).1 = .ok outcome) (state : σ) :
    check.PassesIn around ↔ outcome.passed = true := by
  constructor
  · intro hpasses
    obtain ⟨other, hother, hpassed⟩ := hpasses state
    rw [h] at hother
    cases hother
    exact hpassed
  · exact fun hpassed state => ⟨outcome, h state, hpassed⟩

/-- In a completed run, in any mode, in surroundings that answer alike, a name is reported as failed
    exactly if the last check of that name does not pass by itself. So no failure is reported
    although some check does not pass by itself, exactly if that failure is masked. -/
theorem failedChecks_reveal_iff {set : CheckSet} {clock : σ → Float × σ} {timer : Timer}
    {mode : Mode} {state final : σ} {summary : Summary} (hsteady : around.Steady set.Requests)
    (hrun : set.summarizeIn around clock timer mode state = (.ok summary, final)) :
    (∀ name, name ∈ summary.failedChecks ↔
        ∃ check, set.lastOf name = some check ∧ ¬ check.PassesIn around) ∧
      ((summary.failedChecks = [] → ∀ check ∈ set.checks, check.PassesIn around) ↔
        ¬ set.Masked around) ∧
      (set.names.Nodup → ¬ set.Masked around) := by
  obtain ⟨found, houtcomes, hfound⟩ := forall₂_alone hsteady (runIn_of_summarizeIn hrun)
  have hreported (name : String) : name ∈ summary.failedChecks ↔
      ∃ check, set.lastOf name = some check ∧ ¬ check.PassesIn around := by
    have hrel := rel_lastOf hfound name
    rw [Summary.mem_failedChecks_iff, Summary.outcome?, houtcomes]
    revert hrel
    cases set.lastOf name <;> cases (Labelled.ofList (set.names.zip found)).get? name
    all_goals intro hrel; cases hrel
    · simp
    · next hboth => simp [passesIn_iff_of_run hboth.2 state]
  have hnone : summary.failedChecks = [] ↔
      ∀ name check, set.lastOf name = some check → check.PassesIn around := by
    simp only [List.eq_nil_iff_forall_not_mem, hreported, not_exists, not_and, not_not]
  refine ⟨hreported, ?_, fun hnames => not_masked_of_nodup hnames around⟩
  rw [hnone, Masked]
  constructor
  · rintro hall ⟨⟨check, hcheck, hfails⟩, hlast⟩
    exact hfails (hall hlast check hcheck)
  · intro hnot hlast check hcheck
    by_contra hfails
    exact hnot ⟨⟨check, hcheck, hfails⟩, hlast⟩

/-- Four checks with two names on a pool of two workers. The first failure is masked by the third
    check, but that of the last check is not. -/
theorem failedChecks_reveal_iff_repeated :
    let set : CheckSet := ⟨"set",
      [⟨"a", .library .isPositive, ["x"]⟩, ⟨"b", .library .isPositive, ["y"]⟩,
        ⟨"a", .library .isEven, ["x"]⟩, ⟨"b", .library .isEven, ["z"]⟩]⟩
    let column : Value := .list [.int (-2)]
    let table : Table := ⟨0, [(.text "x", column), (.text "y", column)], none, false, none⟩
    let around := (Source.table table).surroundings
    let mode : Mode := ⟨true, some 2, 1, [1, 0, 0, 1]⟩
    around.Steady set.Requests ∧
      ∃ summary final, set.summarize (.table table) mode {} = (.ok summary, final) ∧
        (∀ name, name ∈ summary.failedChecks ↔
          ∃ check, set.lastOf name = some check ∧ ¬ check.PassesIn around) ∧
        ((summary.failedChecks = [] → ∀ check ∈ set.checks, check.PassesIn around) ↔
          ¬ set.Masked around) ∧
        (set.names.Nodup → ¬ set.Masked around) := by
  intro set column table around mode
  have hsteady : around.Steady set.Requests := by
    refine Source.steady_table (by simp [table]) (Callable.pure_of_not_allowed ?_)
    simp [set, Requests, Check.Requests]
  have hsource : Source.ofData (.table table) (World.readClock {}).2 = (.ok (.table table), {}) := rfl
  obtain ⟨summary, final, hrun, hsummed⟩ := exists_summarize hsource set mode (by decide +kernel)
  exact ⟨hsteady, summary, final, hrun, failedChecks_reveal_iff hsteady hsummed⟩

/-- Two checks of one name, of which the first fails on a row and the second passes: in either mode
    no failure is reported, although the source and the predicates answer alike at every call. -/
theorem failedChecks_hides_failure :
    let first : Check := ⟨"a", .library .isPositive, ["x"]⟩
    let set : CheckSet := ⟨"set", [first, ⟨"a", .library .isEven, ["x"]⟩]⟩
    let table : Table := ⟨0, [(.text "x", .list [.int (-2)])], none, false, none⟩
    (Source.table table).surroundings.Steady set.Requests ∧
      (∀ mode ∈ ([{}, ⟨true, some 2, 1, []⟩] : List Mode),
        ∃ summary final, set.summarize (.table table) mode {} = (.ok summary, final) ∧
          summary.failedChecks = []) ∧
      first ∈ set.checks ∧
      (first.runOn (.table table) {}).1.map (fun outcome => (outcome.passed, outcome.rows)) =
        .ok (false, [1]) := by
  intro first set table
  refine ⟨Source.steady_table (by simp [table]) (Callable.pure_of_not_allowed ?_),
    fun mode hmode => ?_, List.mem_cons_self, ?_⟩
  · simp [set, first, Requests, Check.Requests]
  · have hoks : (set.runIn (Source.table table).surroundings mode {}).1.isOk = true ∧
        (set.runIn (Source.table table).surroundings mode {}).1.toOption.map (fun outcomes =>
          (outcomes.entries.filter fun entry => !entry.2.passed).map Prod.fst) = some [] := by
      simp only [List.mem_cons, List.not_mem_nil, or_false] at hmode
      rcases hmode with rfl | rfl <;> decide +kernel
    have hsource : Source.ofData (.table table) (World.readClock {}).2 =
        (.ok (.table table), {}) := rfl
    obtain ⟨summary, final, hrun, hsummed⟩ := exists_summarize hsource set mode hoks.1
    rw [runIn_of_summarizeIn hsummed] at hoks
    exact ⟨summary, final, hrun, Option.some.inj hoks.2⟩
  · cbv

end CheckSet

end TableAudit
