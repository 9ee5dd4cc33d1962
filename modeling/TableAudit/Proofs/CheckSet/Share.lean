import TableAudit.Proofs.Block.Compiled
import TableAudit.Proofs.CheckSet.Courses
import TableAudit.Proofs.Summary.Aggregate

namespace TableAudit

namespace Check

/-- What the calls of a check amount to: the check cannot be made, for lack of a column or for
    columns of unequal length, or it has a verdict on each row. -/
inductive Judges (check : Check) : List Call → Option (List (Except Raised Bool)) → Prop
  | missing {available : List Value} {name : String} (hname : name ∈ check.columns)
      (hmissing : Value.text name ∉ available) :
      Judges check [.names (.ok available)] none
  | unequal {available columns : List Value} {a b : Value} {m n : Nat}
      (hpresent : ∀ name ∈ check.columns, Value.text name ∈ available)
      (hcolumns : columns.length = check.columns.length) (ha : a ∈ columns) (hb : b ∈ columns)
      (hm : a.length = .ok m) (hn : b.length = .ok n) (hdiffer : m ≠ n) :
      Judges check (.names (.ok available) :: fetches check.columns columns) none
  | rows {available columns : List Value} {rows : List (List Value)}
      {verdicts : List (Except Raised Bool)}
      (hpresent : ∀ name ∈ check.columns, Value.text name ∈ available)
      (hcolumns : columns.length = check.columns.length)
      (hlength : ∀ column ∈ columns, column.length = .ok verdicts.length)
      (hempty : columns = [] → verdicts = []) (hrows : rows.length = verdicts.length)
      (hread : RowsFrom columns 0 rows) :
      Judges check
        (.names (.ok available) :: fetches check.columns columns ++ check.asks rows verdicts)
        (some verdicts)

end Check

open Check

/-- An outcome says what a check amounts to. -/
def Outcome.Says (outcome : Outcome) : Option (List (Except Raised Bool)) → Prop
  | none => outcome.isUnevaluated = true
  | some verdicts =>
    outcome.isUnevaluated = false ∧ outcome.total = verdicts.length ∧
      outcome.rows = (failing verdicts).map fun index => ((index + 1 : Nat) : Int)

/-- What is found along the calls of a check is what they amount to. -/
theorem Check.Finds.exists_judges {check : Check} {calls : List Call} {outcome : Outcome}
    (h : check.Finds calls outcome) :
    ∃ judged, check.Judges calls judged ∧ outcome.Says judged := by
  cases h with
  | missing hmissing hsome =>
    obtain ⟨name, hname⟩ := List.exists_mem_of_ne_nil _ hsome
    subst hmissing
    obtain ⟨hname, hmissing⟩ := List.mem_filter.mp hname
    exact ⟨none, .missing hname (by simpa using hmissing), rfl⟩
  | unequal hpresent hcolumns hlengths hdiffer =>
    obtain ⟨m, hm, n, hn, hne⟩ := hdiffer
    obtain ⟨a, ha, ham⟩ := exists_of_forall₂_left hlengths.flip hm
    obtain ⟨b, hb, hbn⟩ := exists_of_forall₂_left hlengths.flip hn
    exact ⟨none, .unequal hpresent hcolumns ha hb ham hbn hne, rfl⟩
  | @evaluated _ _ _ _ verdicts _ hpresent hcolumns hlength hempty hrows hread hverdicts _ htotal
      hfailing _ hpassed _ =>
    subst hverdicts
    refine ⟨some verdicts, .rows hpresent hcolumns hlength
      (fun h => List.length_eq_zero_iff.mp (hempty h)) hrows hread, ?_, htotal, hfailing⟩
    by_contra hunevaluated
    obtain ⟨hfailed, hzero⟩ :=
      outcome.isUnevaluated_iff.mp (Bool.eq_true_of_not_eq_false hunevaluated)
    have hnone : verdicts = [] := by
      rw [htotal, Int.natCast_eq_zero] at hzero
      exact List.length_eq_zero_iff.mp hzero
    have hpass := hpassed.mpr (by rw [hfailing, hnone]; rfl)
    rw [hfailed] at hpass
    exact Bool.false_ne_true hpass

namespace CheckSet

/-- The number of rows on which the most verdicts of one check are. -/
def longest (judged : List (List (Except Raised Bool))) : Nat :=
  (judged.map List.length).foldl max 0

/-- The number of rows on which some check has a verdict that is not true. -/
def failingCount (judged : List (List (Except Raised Bool))) : Nat :=
  ((List.range (longest judged)).filter fun index =>
    judged.any fun verdicts => verdicts[index]?.any fun verdict => !passes verdict).length

theorem failingCount_le_longest (judged : List (List (Except Raised Bool))) :
    failingCount judged ≤ longest judged := by
  calc failingCount judged ≤ (List.range (longest judged)).length := List.length_filter_le _ _
    _ = longest judged := List.length_range

/-- A row is failing when it has a verdict, and one that is not true. -/
theorem mem_failing_iff {verdicts : List (Except Raised Bool)} {index : Nat} :
    index ∈ failing verdicts ↔
      (verdicts[index]?.any fun verdict => !passes verdict) = true := by
  unfold failing
  rw [List.mem_filter, List.mem_range, and_iff_right_iff_imp]
  intro h
  by_contra hlength
  rw [List.getElem?_eq_none (not_lt.mp hlength)] at h
  cases h

theorem length_le_longest {judged : List (List (Except Raised Bool))}
    {verdicts : List (Except Raised Bool)} (h : verdicts ∈ judged) :
    verdicts.length ≤ longest judged :=
  (Summary.le_foldl_max (judged.map List.length) 0).2 _ (List.mem_map_of_mem h)

variable {summary : Summary} {judged : List (List (Except Raised Bool))}

theorem rowCount_of_says
    (h : List.Forall₂ (fun outcome verdicts => outcome.Says (some verdicts))
      summary.outcomes.values judged) : summary.rowCount = longest judged := by
  unfold Summary.rowCount longest
  generalize summary.outcomes.values = outcomes at h
  have hfold (most : Nat) : (outcomes.map Outcome.total).foldl max (most : Int) =
      ((judged.map List.length).foldl max most : Nat) := by
    induction h generalizing most with
    | nil => rfl
    | cons hfirst _ ih =>
      rw [List.map_cons, List.map_cons, List.foldl_cons, List.foldl_cons, hfirst.2.1, ← ih]
      congr 1
      omega
  exact hfold 0

theorem failingRows_of_says
    (h : List.Forall₂ (fun outcome verdicts => outcome.Says (some verdicts))
      summary.outcomes.values judged) : summary.failingRows.length = failingCount judged := by
  let rows := ((List.range (longest judged)).filter fun index =>
    judged.any fun verdicts => verdicts[index]?.any fun verdict => !passes verdict).map
      fun index => ((index + 1 : Nat) : Int)
  have hascend : rows.Pairwise (· < ·) := by
    rw [List.pairwise_map]
    exact (List.pairwise_lt_range.filter _).imp fun h => by omega
  have hmem : ∀ row, row ∈ summary.failingRows ↔ row ∈ rows := by
    intro row
    simp only [Summary.mem_failingRows, rows, List.mem_map, List.mem_filter, List.mem_range,
      List.any_eq_true, ← mem_failing_iff]
    constructor
    · rintro ⟨outcome, houtcome, hrow⟩
      obtain ⟨verdicts, hverdicts, -, -, hrows⟩ := exists_of_forall₂_left h houtcome
      rw [hrows, List.mem_map] at hrow
      obtain ⟨index, hindex, rfl⟩ := hrow
      have hlength := lt_length_of_mem_failing hindex
      have hlongest := length_le_longest hverdicts
      exact ⟨index, ⟨by omega, verdicts, hverdicts, hindex⟩, rfl⟩
    · rintro ⟨index, ⟨-, verdicts, hverdicts, hindex⟩, rfl⟩
      obtain ⟨outcome, houtcome, -, -, hrows⟩ := exists_of_forall₂_left h.flip hverdicts
      refine ⟨outcome, houtcome, ?_⟩
      rw [hrows]
      exact List.mem_map_of_mem hindex
  have hequal := summary.pairwise_failingRows.eq_of_mem_iff hascend hmem
  rw [hequal, List.length_map]
  rfl

/-- Where each item of a list is related to one of another by way of a third, there is a list of
    these. -/
theorem exists_forall₂_between {α β γ : Type} {related : α → β → γ → Prop} {items : List α}
    {others : List β} (h : List.Forall₂ (fun item other => ∃ way, related item other way) items others) :
    ∃ ways, List.Forall₂ (fun item way => ∃ other ∈ others, related item other way) items ways ∧
      List.Forall₂ (fun other way => ∃ item ∈ items, related item other way) others ways := by
  induction h with
  | nil => exact ⟨[], .nil, .nil⟩
  | @cons item other items others hfirst hrest ih =>
    obtain ⟨way, hway⟩ := hfirst
    obtain ⟨ways, hitems, hothers⟩ := ih
    refine ⟨way :: ways, .cons ⟨other, List.mem_cons_self, hway⟩ (hitems.imp ?_),
      .cons ⟨item, List.mem_cons_self, hway⟩ (hothers.imp ?_)⟩
    · rintro item way ⟨other, hother, hrelated⟩
      exact ⟨other, List.mem_cons_of_mem _ hother, hrelated⟩
    · rintro other way ⟨item, hitem, hrelated⟩
      exact ⟨item, List.mem_cons_of_mem _ hitem, hrelated⟩

theorem forall₂_some_of_not_mem {α β : Type} {related : α → Option β → Prop} {items : List α}
    {ways : List (Option β)} (h : List.Forall₂ related items ways) (hnone : none ∉ ways) :
    ∃ found, ways = found.map some ∧
      List.Forall₂ (fun item way => related item (some way)) items found := by
  induction h with
  | nil => exact ⟨[], rfl, .nil⟩
  | @cons item way items ways hfirst _ ih =>
    rw [List.mem_cons, not_or] at hnone
    obtain ⟨found, rfl, hfound⟩ := ih hnone.2
    cases way with
    | none => exact absurd rfl hnone.1
    | some way => exact ⟨way :: found, rfl, .cons hfirst hfound⟩

/-- The rate of a completed run of a compiled set. Each check has gone a course of its own in the
    surroundings. If one of them could not be made, the rate is zero. Otherwise, of the rows of the
    longest check those are counted that have a verdict other than true, each once however many
    checks it fails, and the rate is the share of the others; without rows it is full. -/
theorem passRate_of_summarizeIn {σ : Type} {around : Surroundings σ} {clock : σ → Float × σ}
    {timer : Timer} {set : CheckSet} (hcompiled : set.Compiled) {mode : Mode} {state final : σ}
    {summary : Summary}
    (hrun : set.summarizeIn around clock timer mode state = (.ok summary, final)) :
    ∃ judged,
      List.Forall₂ (fun check verdicts => ∃ calls outcome,
        check.inquire.Course around calls (.ok outcome) ∧ check.Judges calls verdicts ∧
          summary.outcome? check.name = some outcome)
        set.checks judged ∧
      (none ∈ judged ∧ summary.passRate = .ok .zero ∨
        ∃ verdicts, judged = verdicts.map some ∧ failingCount verdicts ≤ longest verdicts ∧
          summary.passRate =
            if longest verdicts = 0 then .ok .full
            else Summary.rateOf (longest verdicts - failingCount verdicts) (longest verdicts)) := by
  obtain ⟨found, houtcomes, hcourses⟩ := exists_courses (runIn_of_summarizeIn hrun)
  have hnames := hcompiled.nodup_names
  have hlength : set.names.length = found.length := by
    rw [names, List.length_map, hcourses.length_eq]
  have hvalues : summary.outcomes.values = found := by
    rw [Labelled.values, houtcomes, outcomes_of_names hnames hlength]
    exact List.map_snd_zip hlength.ge
  have hways : List.Forall₂ (fun check outcome => ∃ verdicts, outcome.Says verdicts ∧
      ∃ calls, check.inquire.Course around calls (.ok outcome) ∧
        check.Judges calls verdicts ∧ summary.outcome? check.name = some outcome)
      set.checks found := by
    refine (forall₂_outcome? hnames hcourses).imp ?_
    rintro check outcome ⟨⟨calls, hcourse⟩, houtcome⟩
    cases check.ends_course hcourse with
    | finds hfinds =>
      obtain ⟨verdicts, hjudges, hsays⟩ := hfinds.exists_judges
      refine ⟨verdicts, hsays, calls, hcourse, hjudges, ?_⟩
      rwa [Summary.outcome?, houtcomes]
  obtain ⟨judged, hchecks, hfound⟩ := exists_forall₂_between hways
  have hsays : List.Forall₂ Outcome.Says found judged := by
    refine hfound.imp ?_
    rintro outcome verdicts ⟨check, -, hsays, -⟩
    exact hsays
  rw [← hvalues] at hsays
  refine ⟨judged, hchecks.imp ?_, ?_⟩
  · rintro check verdicts ⟨outcome, -, -, calls, hcourse⟩
    exact ⟨calls, outcome, hcourse⟩
  by_cases hnone : none ∈ judged
  · obtain ⟨outcome, houtcome, hunevaluated⟩ := exists_of_forall₂_left hsays.flip hnone
    exact .inl ⟨hnone, summary.passRate_of_unevaluated ⟨outcome, houtcome, hunevaluated⟩⟩
  obtain ⟨verdicts, rfl, hall⟩ := forall₂_some_of_not_mem hsays hnone
  refine .inr ⟨verdicts, rfl, failingCount_le_longest verdicts, ?_⟩
  have hevaluated : ∀ outcome ∈ summary.outcomes.values, outcome.isUnevaluated = false := by
    intro outcome houtcome
    obtain ⟨_, -, h, -⟩ := exists_of_forall₂_left hall houtcome
    exact h
  have htotal := rowCount_of_says hall
  by_cases hempty : longest verdicts = 0
  · rw [if_pos hempty]
    exact summary.passRate_of_no_rows (by rw [htotal, hempty]; rfl) hevaluated
  · rw [if_neg hempty, summary.passRate_of_evaluated (by omega) hevaluated, htotal,
      failingRows_of_says hall]

/-- Two checks on columns of two and of three rows, one of which raises an error. -/
theorem passRate_of_summarizeIn_ragged :
    let call := fun (p : Predicate) => Value.callable (.library p)
    let set : CheckSet := ⟨"set",
      [⟨"positive", .library .isPositive, ["x"]⟩, ⟨"even", .library .isEven, ["y"]⟩]⟩
    let records : Value := .list
      [.tuple [.text "positive", call .isPositive, .list [.text "x"]],
        .tuple [.text "even", call .isEven, .tuple [.text "y", .text "y"]]]
    let data : Data := .mapping
      [(.text "x", .list [.int 1, .int (-1)]), (.text "y", .list [.int 2, .int 3, .null])]
    (Block.build (.text "set") records .standard {}).1 = .ok set ∧
      ∃ summary final judged, set.summarize data {} {} = (.ok summary, final) ∧
        judged.length = set.checks.length ∧
        (none ∈ judged ∧ summary.passRate = .ok .zero ∨
          ∃ verdicts, judged = verdicts.map some ∧ failingCount verdicts ≤ longest verdicts ∧
            summary.passRate =
              if longest verdicts = 0 then .ok .full
              else
                Summary.rateOf (longest verdicts - failingCount verdicts) (longest verdicts)) := by
  intro call set records data
  have hbuild : Block.build (.text "set") records .standard {} = (.ok set, {}) := rfl
  have hsource : Source.ofData data (World.readClock {}).2 = (.ok (.mapping _), {}) := rfl
  obtain ⟨summary, final, hrun, hsummed⟩ := exists_summarize hsource set {} (by decide +kernel)
  obtain ⟨judged, hchecks, hrate⟩ := passRate_of_summarizeIn (.records hbuild) hsummed
  exact ⟨congrArg Prod.fst hbuild, summary, final, judged, hrun, hchecks.length_eq.symm, hrate⟩

end CheckSet

end TableAudit
