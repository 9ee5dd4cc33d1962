import TableAudit.Proofs.Block.Compiled
import TableAudit.Proofs.CheckSet.Courses
import TableAudit.Proofs.Summary.Lookup

namespace TableAudit

/-- A column that a source serves under a name, in some state. -/
def Surroundings.Serves {σ : Type} (around : Surroundings σ) (name : String) (column : Value) :
    Prop :=
  ∃ state, (around.column name state).1 = .ok column

/-- The columns in the calls of a course were served. -/
theorem Inquiry.Course.serves {α σ : Type} {around : Surroundings σ} {inquiry : Inquiry α}
    {calls : List Call} {result : Except Fault α} (h : inquiry.Course around calls result)
    {name : String} {column : Value} (hcall : .column name (.ok column) ∈ calls) :
    around.Serves name column := by
  induction h with
  | done => cases hcall
  | fail => cases hcall
  | names _ _ ih =>
    cases hcall with
    | tail _ hcall => exact ih hcall
  | namesFail _ =>
    cases hcall with
    | tail _ hcall => cases hcall
  | column hanswer _ ih =>
    cases hcall with
    | head => exact ⟨_, hanswer⟩
    | tail _ hcall => exact ih hcall
  | columnFail _ =>
    cases hcall with
    | tail _ hcall => cases hcall
  | ask _ _ _ ih =>
    cases hcall with
    | tail _ hcall => exact ih hcall
  | askEscape _ _ =>
    cases hcall with
    | tail _ hcall => cases hcall
  | report _ ih => exact ih hcall

/-- Columns that are all fetched in the calls of a course are served under their names. -/
theorem Inquiry.Course.forall₂_serves {α σ : Type} {around : Surroundings σ} {inquiry : Inquiry α}
    {calls : List Call} {result : Except Fault α} (h : inquiry.Course around calls result)
    {names : List String} {columns : List Value} (hlength : columns.length = names.length)
    (hcalls : Check.fetches names columns ⊆ calls) :
    List.Forall₂ around.Serves names columns := by
  refine List.forall₂_iff_zip.mpr ⟨hlength.symm, fun {name column} hmem => ?_⟩
  apply h.serves
  apply hcalls
  rw [Check.fetches, ← List.map_uncurry_zip_eq_zipWith]
  exact List.mem_map_of_mem (f := fun entry => Call.column entry.1 (.ok entry.2)) hmem

/-- An outcome shows its failing rows: for each of them, under the names and in their order, the
    values that columns of these names have there. The columns are as the source serves them. -/
def Outcome.Shows {σ : Type} (outcome : Outcome) (around : Surroundings σ) (names : List String) :
    Prop :=
  outcome.rows = [] ∧ outcome.values = [] ∨
    ∃ columns, List.Forall₂ around.Serves names columns ∧
      List.Forall₂ (fun (row : Int) values => ∃ index : Nat, row = index + 1 ∧
        values.labels = names ∧ Check.RowIs columns index values.values) outcome.rows outcome.values

/-- What a check finds along a course shows its failing rows, if it names no column twice. -/
theorem Check.shows_of_course {σ : Type} {around : Surroundings σ} {check : Check}
    {calls : List Call} {outcome : Outcome} (hnodup : check.columns.Nodup)
    (h : check.inquire.Course around calls (.ok outcome)) : outcome.Shows around check.columns := by
  cases check.ends_course h with
  | finds hfinds =>
    cases hfinds with
    | missing _ _ => exact .inl ⟨rfl, rfl⟩
    | unequal _ _ _ _ => exact .inl ⟨rfl, rfl⟩
    | @evaluated available columns count rows verdicts outcome hpresent hcolumns hlength hempty
        hrows hread hverdicts hstay htotal hfailing hvalues hpassed hmessage =>
      have hserved : List.Forall₂ around.Serves check.columns columns := by
        refine h.forall₂_serves hcolumns fun call hcall => ?_
        exact List.mem_append_left _ (List.mem_cons_of_mem _ hcall)
      refine .inr ⟨columns, hserved, ?_⟩
      rw [hfailing, hvalues, List.forall₂_map_left_iff, List.forall₂_map_right_iff,
        List.forall₂_same]
      intro index hindex
      have hwithin : index < rows.length := by
        rw [hrows, ← hverdicts]
        exact lt_length_of_mem_failing hindex
      have hrow : rows[index]? = some (rows.getD index []) := by
        rw [List.getD_eq_getElem _ _ hwithin, List.getElem?_eq_getElem hwithin]
      have hvalues := hread index _ hrow
      rw [Nat.zero_add] at hvalues
      obtain ⟨hlabels, hentries⟩ :=
        Labelled.labels_values_ofList_zip hnodup (hcolumns.symm.trans hvalues.length_eq)
      refine ⟨index, Nat.cast_succ index, hlabels, ?_⟩
      rwa [hentries]

namespace CheckSet

/-- What compiling establishes, and what completed runs make of it. No two checks of the set have one
    name, and each can be called and has columns, none of them twice. The summary of a completed run,
    in any surroundings and any mode, has an outcome under the name of each check, in the order of
    the checks, which shows the values of its failing rows by the columns of the check; and the rate,
    the failing rows and the columns under a name are found for the same names. -/
theorem outcomes_of_summarizeIn {set : CheckSet} (hcompiled : set.Compiled) :
    set.names.Nodup ∧ (∀ check ∈ set.checks, check.WellFormed) ∧
      ∀ {σ : Type} (around : Surroundings σ) (clock : σ → Float × σ) (timer : Timer) (mode : Mode)
        (state final : σ) (summary : Summary),
        set.summarizeIn around clock timer mode state = (.ok summary, final) →
        summary.outcomes.labels = set.names ∧
        (∀ name outcome, summary.outcome? name = some outcome →
          ∃ columns, set.columnsOf name = .ok columns ∧ outcome.Shows around columns) ∧
        ∀ name, (NotFound (summary.passRateOf name) ↔ NotFound (set.columnsOf name)) ∧
          (NotFound (summary.failingRowsOf name) ↔ NotFound (set.columnsOf name)) := by
  have hnames := hcompiled.nodup_names
  refine ⟨hnames, hcompiled.wellFormed, fun around clock timer mode state final summary hrun => ?_⟩
  obtain ⟨found, houtcomes, hcourses⟩ := exists_courses (runIn_of_summarizeIn hrun)
  have hlength : set.names.length = found.length := by
    rw [names, List.length_map, hcourses.length_eq]
  have hlabels : summary.outcomes.labels = set.names := by
    rw [houtcomes]
    exact (Labelled.labels_values_ofList_zip hnames hlength).1
  refine ⟨hlabels, ?_, fun name => ?_⟩
  · intro name outcome houtcome
    have hname : name ∈ set.names := by
      rw [← hlabels]
      by_contra hmissing
      rw [← Labelled.get?_eq_none_iff] at hmissing
      rw [Summary.outcome?, hmissing] at houtcome
      cases houtcome
    obtain ⟨check, hcheck, rfl⟩ := List.mem_map.mp hname
    obtain ⟨other, -, ⟨calls, hcourse⟩, hget⟩ :=
      exists_of_forall₂_left (forall₂_outcome? hnames hcourses) hcheck
    rw [Summary.outcome?, houtcomes, hget] at houtcome
    cases houtcome
    refine ⟨check.columns, columnsOf_of_mem hnames hcheck, ?_⟩
    exact check.shows_of_course (hcompiled.wellFormed check hcheck).columns_nodup hcourse
  · rw [Summary.notFound_passRateOf_iff, Summary.notFound_failingRowsOf_iff,
      notFound_columnsOf_iff, hlabels]
    exact ⟨Iff.rfl, Iff.rfl⟩

/-- Two checks on a pool of two workers, one of which names a column twice and fails two of three
    rows, and one that misses its column. -/
theorem outcomes_of_summarizeIn_pooled :
    let call := fun (p : Predicate) => Value.callable (.library p)
    let set : CheckSet := ⟨"set",
      [⟨"greater", .library .firstGreaterThanSecond, ["x", "y"]⟩,
        ⟨"gone", .library .isPositive, ["z"]⟩]⟩
    let records : Value := .list
      [.tuple [.text "greater", call .firstGreaterThanSecond,
          .list [.text "x", .text "y", .text "x"]],
        .tuple [.text "gone", call .isPositive, .tuple [.text "z"]]]
    let columns : List (Value × Value) :=
      [(.text "x", .list [.int 1, .int 2, .int 3]), (.text "y", .list [.int 2, .int 1, .int 3])]
    let mode : Mode := ⟨true, some 2, 1, [1, 0, 0, 1]⟩
    (Block.build (.text "set") records .standard {}).1 = .ok set ∧ set.names.Nodup ∧
      (∀ check ∈ set.checks, check.WellFormed) ∧
      ∃ summary final, set.summarize (.mapping columns) mode {} = (.ok summary, final) ∧
        summary.outcomes.labels = set.names ∧
        (∀ name outcome, summary.outcome? name = some outcome →
          ∃ names, set.columnsOf name = .ok names ∧
            outcome.Shows (Source.mapping columns).surroundings names) ∧
        ∀ name, (NotFound (summary.passRateOf name) ↔ NotFound (set.columnsOf name)) ∧
          (NotFound (summary.failingRowsOf name) ↔ NotFound (set.columnsOf name)) := by
  intro call set records columns mode
  have hbuild : Block.build (.text "set") records .standard {} = (.ok set, {}) := rfl
  have hsource : Source.ofData (.mapping columns) (World.readClock {}).2 =
      (.ok (.mapping columns), {}) := rfl
  obtain ⟨summary, final, hrun, hsummed⟩ := exists_summarize hsource set mode (by decide +kernel)
  obtain ⟨hnames, hformed, hruns⟩ := outcomes_of_summarizeIn (.records hbuild)
  exact ⟨congrArg Prod.fst hbuild, hnames, hformed, summary, final, hrun,
    hruns _ _ _ _ _ _ _ hsummed⟩

end CheckSet

end TableAudit
