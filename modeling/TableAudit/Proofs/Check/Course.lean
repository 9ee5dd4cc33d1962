import Mathlib
import TableAudit.Proofs.Check.Rows
import TableAudit.Proofs.Outcome.Consistency
import TableAudit.Proofs.Related
import TableAudit.Run.CheckSet

namespace TableAudit

/-- Only the text itself equals a text. -/
theorem equals_text_iff (name : String) (value : Value) :
    Value.equals (.text name) value = true ↔ value = .text name := by
  cases value with
  | text other =>
    rw [Value.equals, beq_iff_eq, Value.text.injEq]
    exact eq_comm
  | _ => simp [Value.equals]

/-- A column whose length and whose values by position can be had without an error. -/
def Value.Readable (column : Value) : Prop :=
  ∃ count, column.length = .ok count ∧ ∀ index < count, ∃ value, column.item index = .ok value

theorem Value.readable_iff (column : Value) :
    column.Readable ↔ (column.length.toOption.any fun count =>
      decide (∀ index < count, (column.item index).isOk = true)) = true := by
  have hitem (index : Nat) :
      (∃ value, column.item index = .ok value) ↔ (column.item index).isOk = true := by
    rcases column.item index with error | value <;> simp [Except.isOk, Except.toBool]
  simp only [Readable, hitem]
  rcases column.length with error | count <;> simp [Except.toOption]

instance Value.decidableReadable : DecidablePred Value.Readable := fun column =>
  decidable_of_iff _ column.readable_iff.symm

theorem readable_list (items : List Value) : (Value.list items).Readable :=
  ⟨items.length, rfl, fun index h => ⟨items[index], by simp [Value.item, h]⟩⟩

namespace Check

open scoped Classical in
/-- The missing columns are those of the check that are not among the names, in the order of the
    check. -/
theorem missingColumns_eq_filter (check : Check) (available : List Value) :
    check.missingColumns available =
      check.columns.filter fun name => decide (Value.text name ∉ available) := by
  unfold missingColumns
  congr 1
  funext name
  have hany : (available.any fun value => Value.equals (.text name) value) =
      decide (Value.text name ∈ available) := by
    rw [Bool.eq_iff_iff]
    simp [equals_text_iff]
  rw [hany, decide_not]

theorem missingColumns_eq_nil_iff (check : Check) (available : List Value) :
    check.missingColumns available = [] ↔ ∀ name ∈ check.columns, Value.text name ∈ available := by
  rw [missingColumns_eq_filter]
  simp

theorem eq_headD_of_sameLength {lengths : List Nat} (h : sameLength lengths = true) :
    ∀ length ∈ lengths, length = lengths.headD 0 := by
  cases lengths with
  | nil => simp
  | cons first rest => simpa [sameLength] using h

theorem exists_ne_of_not_sameLength {lengths : List Nat} (h : ¬ sameLength lengths = true) :
    ∃ a ∈ lengths, ∃ b ∈ lengths, a ≠ b := by
  cases lengths with
  | nil => exact absurd rfl h
  | cons first rest =>
    obtain ⟨other, hmem, hne⟩ : ∃ other ∈ rest, other ≠ first := by simpa [sameLength] using h
    exact ⟨other, List.mem_cons_of_mem first hmem, first, List.mem_cons_self, hne⟩

/-- The calls that fetch columns, each served. -/
def fetches (names : List String) (columns : List Value) : List Call :=
  List.zipWith (fun name column => .column name (.ok column)) names columns

open scoped Classical in
/-- What a check finds, with the calls that it makes: that columns are missing, that they differ in
    length, or which of all rows fail. -/
inductive Finds (check : Check) : List Call → Outcome → Prop
  | missing {available : List Value} {missing : List String}
      (hmissing : missing = check.columns.filter fun name => decide (Value.text name ∉ available))
      (hsome : missing ≠ []) :
      Finds check [.names (.ok available)]
        (.unevaluated ("Required columns not found: " ++ joinWith ", " missing))
  | unequal {available columns : List Value} {lengths : List Nat}
      (hpresent : ∀ name ∈ check.columns, Value.text name ∈ available)
      (hcolumns : columns.length = check.columns.length)
      (hlengths : List.Forall₂ (fun column length => column.length = .ok length) columns lengths)
      (hdiffer : ∃ a ∈ lengths, ∃ b ∈ lengths, a ≠ b) :
      Finds check (.names (.ok available) :: fetches check.columns columns)
        (.unevaluated ("Column lengths differ: " ++
          joinWith ", " (List.zipWith (fun name length => name ++ "=" ++ toString length)
            check.columns lengths)))
  | evaluated {available columns : List Value} {count : Nat} {rows : List (List Value)}
      {verdicts : List (Except Raised Bool)} {outcome : Outcome}
      (hpresent : ∀ name ∈ check.columns, Value.text name ∈ available)
      (hcolumns : columns.length = check.columns.length)
      (hlength : ∀ column ∈ columns, column.length = .ok count)
      (hempty : columns = [] → count = 0)
      (hrows : rows.length = count) (hread : RowsFrom columns 0 rows)
      (hverdicts : verdicts.length = count) (hstay : ∀ verdict ∈ verdicts, Stays verdict)
      (htotal : outcome.total = count)
      (hfailing : outcome.rows = (failing verdicts).map fun index => ((index + 1 : Nat) : Int))
      (hvalues : outcome.values = (failing verdicts).map fun index =>
        Labelled.ofList (check.columns.zip (rows.getD index [])))
      (hpassed : outcome.passed = true ↔ outcome.rows = [])
      (hmessage : outcome.message =
        if outcome.rows = [] then "All rows passed"
        else toString outcome.rows.length ++ " rows failed") :
      Finds check
        (.names (.ok available) :: fetches check.columns columns ++ check.asks rows verdicts) outcome

/-- The error that ends an evaluation, with the calls made before: an error of the source, of a
    column that it served, or one of the predicate that ends the program. -/
inductive Stops (check : Check) : List Call → Raised → Prop
  | names {error : Raised} : Stops check [.names (.error error)] error
  | column {available columns : List Value} {before after : List String} {name : String}
      {error : Raised}
      (hpresent : ∀ name ∈ check.columns, Value.text name ∈ available)
      (hnames : check.columns = before ++ name :: after) (hcolumns : columns.length = before.length) :
      Stops check
        (.names (.ok available) :: fetches before columns ++ [.column name (.error error)]) error
  | length {available columns : List Value} {column : Value} {error : Raised}
      (hpresent : ∀ name ∈ check.columns, Value.text name ∈ available)
      (hcolumns : columns.length = check.columns.length) (hcolumn : column ∈ columns)
      (hlength : column.length = .error error) :
      Stops check (.names (.ok available) :: fetches check.columns columns) error
  | item {available columns : List Value} {count : Nat} {rows : List (List Value)}
      {verdicts : List (Except Raised Bool)} {column : Value} {error : Raised}
      (hpresent : ∀ name ∈ check.columns, Value.text name ∈ available)
      (hcolumns : columns.length = check.columns.length)
      (hlength : ∀ column ∈ columns, column.length = .ok count)
      (hrows : rows.length < count) (hread : RowsFrom columns 0 rows)
      (hverdicts : verdicts.length = rows.length) (hstay : ∀ verdict ∈ verdicts, Stays verdict)
      (hcolumn : column ∈ columns) (hitem : column.item rows.length = .error error) :
      Stops check
        (.names (.ok available) :: fetches check.columns columns ++ check.asks rows verdicts) error
  | escape {available columns : List Value} {count : Nat} {rows : List (List Value)}
      {verdicts : List (Except Raised Bool)} {values : List Value} {error : Raised}
      (hpresent : ∀ name ∈ check.columns, Value.text name ∈ available)
      (hcolumns : columns.length = check.columns.length)
      (hlength : ∀ column ∈ columns, column.length = .ok count)
      (hrows : rows.length < count) (hread : RowsFrom columns 0 (rows ++ [values]))
      (hverdicts : verdicts.length = rows.length) (hstay : ∀ verdict ∈ verdicts, Stays verdict)
      (hescapes : error.escapes = true) :
      Stops check
        (.names (.ok available) :: fetches check.columns columns ++ check.asks rows verdicts ++
          [.ask check.predicate values (.error error)]) error

/-- How an evaluation ends, with the calls that it makes. -/
inductive Ends (check : Check) (calls : List Call) : Except Fault Outcome → Prop
  | finds {outcome : Outcome} (h : check.Finds calls outcome) : Ends check calls (.ok outcome)
  | stops {error : Raised} (h : check.Stops calls error) : Ends check calls (.error (.raised error))

/-- Fetching serves all columns and goes on with them, or ends at the first that is not served. -/
theorem fetchColumns_cases {σ : Type} (around : Surroundings σ) (names : List String)
    (fetched : List Value) (next : List Value → Inquiry Outcome) (state : σ) :
    (∃ columns reached, columns.length = names.length ∧
      (fetchColumns names fetched next).calls around state =
        fetches names columns ++ (next (fetched ++ columns)).calls around reached ∧
      (fetchColumns names fetched next).run around state =
        (next (fetched ++ columns)).run around reached) ∨
    (∃ before name after columns error, names = before ++ name :: after ∧
      columns.length = before.length ∧
      (fetchColumns names fetched next).calls around state =
        fetches before columns ++ [.column name (.error error)] ∧
      ((fetchColumns names fetched next).run around state).1 = .error (.raised error)) := by
  induction names generalizing fetched state with
  | nil => exact .inl ⟨[], state, rfl, by simp [fetchColumns, fetches], by simp [fetchColumns]⟩
  | cons name rest ih =>
    simp only [fetchColumns, Inquiry.calls, Inquiry.run]
    rcases around.column name state with ⟨error | column, reached⟩
    · exact .inr ⟨[], name, rest, [], error, rfl, rfl, rfl, rfl⟩
    · rcases ih (fetched ++ [column]) reached with
        ⟨columns, final, hlength, hcalls, hrun⟩ |
          ⟨before, last, after, columns, error, hnames, hlength, hcalls, hrun⟩
      · refine .inl ⟨column :: columns, final, by simp [hlength], ?_, ?_⟩
        · simp [hcalls, fetches]
        · simp [hrun]
      · refine .inr ⟨name :: before, last, after, column :: columns, error, by simp [hnames],
          by simp [hlength], ?_, hrun⟩
        simp [hcalls, fetches]

/-- The report of the number of errors adds neither a call nor a finding to the sweep over all rows. -/
theorem sweep_evaluate {σ : Type} (around : Surroundings σ) (check : Check) (columns : List Value)
    (total : Nat) (state : σ) :
    check.Sweep columns 0 total Findings.none ((check.evaluate columns total).calls around state)
      ((check.evaluate columns total).run around state).1 := by
  have hsweep := sweep_evaluateRows around check columns total 0 Findings.none state
  unfold evaluate
  rw [Inquiry.calls_bind, Inquiry.run_bind]
  rcases hrun : (check.evaluateRows columns total 0 Findings.none).run around state with
    ⟨fault | found, reached⟩
  · rw [hrun] at hsweep
    simpa using hsweep
  · rw [hrun] at hsweep
    dsimp only
    split <;> simpa [Inquiry.calls, Inquiry.run] using hsweep

theorem pairwise_failing (verdicts : List (Except Raised Bool)) :
    (failing verdicts).Pairwise (· < ·) :=
  List.pairwise_lt_range.filter _

theorem lt_length_of_mem_failing {verdicts : List (Except Raised Bool)} {index : Nat}
    (h : index ∈ failing verdicts) : index < verdicts.length :=
  List.mem_range.1 (List.mem_filter.1 h).1

/-- What a sweep over all rows found is always accepted as an outcome, and the outcome says no more
    than that. -/
theorem outcomeOf_failuresFrom (check : Check) (rows : List (List Value))
    (verdicts : List (Except Raised Bool)) (errors : Nat) :
    ∃ outcome, outcomeOf ⟨(check.failuresFrom 0 rows verdicts).reverse, errors⟩ verdicts.length =
        .done outcome ∧
      outcome.total = verdicts.length ∧
      outcome.rows = ((failing verdicts).map fun index => ((index + 1 : Nat) : Int)) ∧
      outcome.values = ((failing verdicts).map fun index =>
        Labelled.ofList (check.columns.zip (rows.getD index []))) ∧
      (outcome.passed = true ↔ outcome.rows = []) ∧
      outcome.message =
        if outcome.rows = [] then "All rows passed"
        else toString outcome.rows.length ++ " rows failed" := by
  let found : Findings := ⟨(check.failuresFrom 0 rows verdicts).reverse, errors⟩
  have hrows : found.rows = (failing verdicts).map fun index => ((index + 1 : Nat) : Int) := by
    simp [found, Findings.rows, failuresFrom, Function.comp_def]
  have hvalues : found.values = (failing verdicts).map fun index =>
      Labelled.ofList (check.columns.zip (rows.getD index [])) := by
    simp [found, Findings.values, failuresFrom, rowValues, Function.comp_def]
  have hascending : found.rows.Pairwise (· < ·) := by
    rw [hrows, List.pairwise_map]
    exact (pairwise_failing verdicts).imp fun h => by omega
  have hplaces : ∀ row ∈ found.rows, 0 < row ∧ row ≤ (verdicts.length : Int) := by
    intro row hrow
    rw [hrows] at hrow
    obtain ⟨index, hindex, rfl⟩ := List.mem_map.1 hrow
    have := lt_length_of_mem_failing hindex
    omega
  have hcount : found.rows.length = found.values.length := by
    simp [Findings.rows, Findings.values]
  obtain ⟨outcome, hmade, hpassed, hrows', hvalues', hmessage, htotal⟩ :=
    Outcome.ofFailures_eq_ok (Int.natCast_nonneg verdicts.length) hcount hascending hplaces
  refine ⟨outcome, ?_, htotal, hrows'.trans hrows, hvalues'.trans hvalues, ?_, ?_⟩
  · simp only [outcomeOf, found] at hmade ⊢
    rw [hmade]
  · rw [hpassed, hrows', List.isEmpty_iff]
  · rw [hmessage, hrows']
    simp [Outcome.messageFor, Outcome.allPassed, List.length_eq_zero_iff]

/-- Once all columns are fetched, the evaluation ends as the relation says. -/
theorem ends_inquireColumns {σ : Type} (around : Surroundings σ) (check : Check)
    {available columns : List Value} (state : σ)
    (hpresent : ∀ name ∈ check.columns, Value.text name ∈ available)
    (hcolumns : columns.length = check.columns.length) :
    check.Ends
      (.names (.ok available) :: (fetches check.columns columns ++
        (check.inquireColumns columns).calls around state))
      ((check.inquireColumns columns).run around state).1 := by
  unfold inquireColumns
  cases hlengths : columns.mapM Value.length with
  | error error =>
    obtain ⟨column, hcolumn, hlength⟩ := exists_of_mapM_eq_error hlengths
    simpa [Inquiry.calls, Inquiry.run] using
      Ends.stops (.length hpresent hcolumns hcolumn hlength)
  | ok lengths =>
    have hall := (mapM_eq_ok_iff _ _ _).1 hlengths
    dsimp only
    by_cases hsame : sameLength lengths = true
    · rw [if_pos hsame]
      have hlength : ∀ column ∈ columns, column.length = .ok (lengths.headD 0) := by
        intro column hcolumn
        obtain ⟨length, hmem, hlength⟩ := exists_of_forall₂_left hall hcolumn
        rwa [eq_headD_of_sameLength hsame length hmem] at hlength
      have hempty : columns = [] → lengths.headD 0 = 0 := by
        rintro rfl
        cases hall
        rfl
      simp only [Inquiry.calls, Inquiry.run, Inquiry.calls_bind, Inquiry.run_bind]
      generalize around.report (check.runningEntry (lengths.headD 0)) state = state
      have hsweep := sweep_evaluate around check columns (lengths.headD 0) state
      rcases hrun : (check.evaluate columns (lengths.headD 0)).run around state with
        ⟨result, reached⟩
      rw [hrun] at hsweep
      generalize (check.evaluate columns (lengths.headD 0)).calls around state = calls at hsweep ⊢
      cases hsweep with
      | ended rows verdicts hrows hverdicts hread hstay =>
        obtain ⟨outcome, hdone, htotal, hfailing, hvalues, hpassed, hmessage⟩ :=
          outcomeOf_failuresFrom check rows verdicts (errorCount verdicts)
        rw [hverdicts] at hdone htotal
        simp only [Findings.none, List.append_nil, Nat.zero_add, hdone, Inquiry.calls, Inquiry.run]
        exact .finds (.evaluated hpresent hcolumns hlength hempty hrows hread hverdicts hstay htotal
          hfailing hvalues hpassed hmessage)
      | unread rows verdicts hrows hverdicts hread hstay hcolumn hitem =>
        rw [Nat.zero_add] at hitem
        simpa using Ends.stops
          (.item hpresent hcolumns hlength hrows hread hverdicts hstay hcolumn hitem)
      | escaped rows verdicts hrows hverdicts hread hstay hescapes =>
        simpa using Ends.stops
          (.escape hpresent hcolumns hlength hrows hread hverdicts hstay hescapes)
    · rw [if_neg hsame]
      simp only [Inquiry.calls, Inquiry.run, List.append_nil]
      exact .finds (.unequal hpresent hcolumns hall (exists_ne_of_not_sameLength hsame))

/-- Whatever its surroundings answer, and however their state changes, the evaluation of a check
    goes one of these ways. No outcome that it makes is refused. -/
theorem ends_inquire {σ : Type} (around : Surroundings σ) (check : Check) (state : σ) :
    check.Ends (check.inquire.calls around state) (check.inquire.run around state).1 := by
  unfold inquire
  simp only [Inquiry.calls, Inquiry.run]
  rcases around.names state with ⟨error | available, reached⟩
  · exact .stops .names
  · dsimp only
    cases hmissing : check.missingColumns available with
    | nil =>
      have hpresent := (missingColumns_eq_nil_iff check available).1 hmissing
      rcases fetchColumns_cases around check.columns [] check.inquireColumns reached with
        ⟨columns, final, hcolumns, hcalls, hrun⟩ |
          ⟨before, name, after, columns, error, hnames, hcolumns, hcalls, hrun⟩
      · rw [hcalls, hrun]
        exact ends_inquireColumns around check final hpresent hcolumns
      · rw [hcalls, hrun]
        exact .stops (.column hpresent hnames hcolumns)
    | cons name others =>
      exact .finds (.missing (hmissing ▸ missingColumns_eq_filter check available)
        (List.cons_ne_nil name others))

theorem exists_mem_fetches {names : List String} {columns : List Value}
    (hlength : columns.length = names.length) {column : Value} (hcolumn : column ∈ columns) :
    ∃ name, .column name (.ok column) ∈ fetches names columns := by
  obtain ⟨index, hindex, rfl⟩ := List.mem_iff_getElem.1 hcolumn
  have hname : index < names.length := hlength ▸ hindex
  refine ⟨names[index], List.mem_iff_getElem.2 ⟨index, ?_, ?_⟩⟩
  · rw [fetches, List.length_zipWith]
    omega
  · simp [fetches]

/-- When the source answers, the columns that it serves can be read, and the predicate raises no
    error that ends the program, the evaluation has an outcome, and that is what the check finds
    along its calls. Neither the source nor the predicate has to answer alike twice. -/
theorem inquire_finds {σ : Type} (around : Surroundings σ) (check : Check) (state : σ)
    (hanswered : ∀ call ∈ check.inquire.calls around state, call.Answered)
    (hreadable : ∀ name column,
      .column name (.ok column) ∈ check.inquire.calls around state → column.Readable) :
    ∃ outcome, (check.inquire.run around state).1 = .ok outcome ∧
      check.Finds (check.inquire.calls around state) outcome := by
  have hends := ends_inquire around check state
  generalize check.inquire.calls around state = calls at hends hanswered hreadable ⊢
  generalize (check.inquire.run around state).1 = result at hends ⊢
  have hserved {columns : List Value} (hcolumns : columns.length = check.columns.length)
      (hcalls : ∀ call ∈ fetches check.columns columns, call ∈ calls) {column : Value}
      (hcolumn : column ∈ columns) : column.Readable := by
    obtain ⟨name, hmem⟩ := exists_mem_fetches hcolumns hcolumn
    exact hreadable name column (hcalls _ hmem)
  cases hends with
  | @finds outcome h => exact ⟨outcome, rfl, h⟩
  | @stops error h =>
    exfalso
    cases h with
    | names =>
      obtain ⟨available, h⟩ := hanswered _ List.mem_cons_self
      cases h
    | @column _ _ _ _ name _ =>
      obtain ⟨column, h⟩ := hanswered (.column name (.error error)) (by simp)
      cases h
    | length _ hcolumns hcolumn hlength =>
      obtain ⟨count, hcount, _⟩ :=
        hserved hcolumns (fun call h => List.mem_cons_of_mem _ h) hcolumn
      rw [hlength] at hcount
      cases hcount
    | item _ hcolumns hlengths hrows _ _ _ hcolumn hitem =>
      obtain ⟨count, hcount, hitems⟩ :=
        hserved hcolumns (fun call h => by simp [h]) hcolumn
      rw [hlengths _ hcolumn, Except.ok.injEq] at hcount
      obtain ⟨value, hvalue⟩ := hitems _ (hcount ▸ hrows)
      rw [hitem] at hvalue
      cases hvalue
    | @escape _ _ _ _ _ values _ _ _ _ _ _ _ _ hescapes =>
      have hstay := hanswered (.ask check.predicate values (.error error)) (by simp) error rfl
      rw [hescapes] at hstay
      cases hstay

/-- A column that can be read only once, and a predicate that fails every third call. -/
theorem inquire_finds_counted :
    let around := (Source.mapping [(.text "a", .stream 0)]).surroundings
    let check : Check := ⟨"mostly", .library .counted, ["a"]⟩
    let world : World := { streams := [[.int 5, .null, .int 7]] }
    (∀ call ∈ check.inquire.calls around world, call.Answered) ∧
      (∀ name column,
        .column name (.ok column) ∈ check.inquire.calls around world → column.Readable) ∧
      ∃ outcome, (check.inquire.run around world).1 = .ok outcome ∧
        check.Finds (check.inquire.calls around world) outcome := by
  intro around check world
  have hcalls : check.inquire.calls around world =
      [.names (.ok [.text "a"]), .column "a" (.ok (.list [.int 5, .null, .int 7])),
        .ask (.library .counted) [.int 5] (.ok true), .ask (.library .counted) [.null] (.ok true),
        .ask (.library .counted) [.int 7] (.ok false)] := by
    cbv
  have hanswered : ∀ call ∈ check.inquire.calls around world, call.Answered := by
    rw [hcalls]
    simp [Call.Answered]
  have hreadable : ∀ name column,
      .column name (.ok column) ∈ check.inquire.calls around world → column.Readable := by
    intro name column h
    rw [hcalls] at h
    obtain ⟨rfl, rfl⟩ : name = "a" ∧ column = .list [.int 5, .null, .int 7] := by simpa using h
    exact readable_list _
  exact ⟨hanswered, hreadable, inquire_finds around check world hanswered hreadable⟩

end Check

end TableAudit
