import TableAudit.Proofs.Check.Course

namespace TableAudit

/-- What a call asks for, before it is answered. -/
inductive Call.Demand
  | names
  | column (name : String)
  | verdict (predicate : Callable) (values : List Value)

namespace Call

def demand : Call → Demand
  | names _ => .names
  | column name _ => .column name
  | ask predicate values _ => .verdict predicate values

/-- The error with which a call ends an inquiry: any error of the source, and one of a predicate
    that ends the program. -/
inductive Raises : Call → Raised → Prop
  | names {error : Raised} : Raises (.names (.error error)) error
  | column {name : String} {error : Raised} : Raises (.column name (.error error)) error
  | ask {predicate : Callable} {values : List Value} {error : Raised}
      (hescapes : error.escapes = true) : Raises (.ask predicate values (.error error)) error

end Call

/-- Surroundings that note the calls made to them, with their answers. -/
def Surroundings.noting {σ : Type} (around : Surroundings σ) : Surroundings (σ × List Call) where
  names noted :=
    match around.names noted.1 with
    | (answer, reached) => (answer, reached, noted.2 ++ [.names answer])
  column name noted :=
    match around.column name noted.1 with
    | (answer, reached) => (answer, reached, noted.2 ++ [.column name answer])
  ask predicate values noted :=
    match around.ask predicate values noted.1 with
    | (verdict, reached) => (verdict, reached, noted.2 ++ [.ask predicate values verdict])
  report entry noted := (around.report entry noted.1, noted.2)

/-- To note the calls changes neither the result nor the state, and those noted are the calls of the
    inquiry. -/
theorem Inquiry.run_noting {α σ : Type} (around : Surroundings σ) (inquiry : Inquiry α) (state : σ)
    (made : List Call) :
    inquiry.run around.noting (state, made) =
      ((inquiry.run around state).1, (inquiry.run around state).2,
        made ++ inquiry.calls around state) := by
  induction inquiry generalizing state made with
  | done result => rw [calls, List.append_nil]; rfl
  | fail fault => rw [calls, List.append_nil]; rfl
  | names next ih =>
    have hnoted : around.noting.names (state, made) =
        ((around.names state).1, (around.names state).2, made ++ [.names (around.names state).1]) :=
      rfl
    simp only [run, calls, hnoted]
    rcases around.names state with ⟨error | answer, reached⟩
    · rfl
    · simp only [ih, List.append_assoc, List.singleton_append]
  | column name next ih =>
    have hnoted : around.noting.column name (state, made) =
        ((around.column name state).1, (around.column name state).2,
          made ++ [.column name (around.column name state).1]) := rfl
    simp only [run, calls, hnoted]
    rcases around.column name state with ⟨error | answer, reached⟩
    · rfl
    · simp only [ih, List.append_assoc, List.singleton_append]
  | ask predicate values next ih =>
    have hnoted : around.noting.ask predicate values (state, made) =
        ((around.ask predicate values state).1, (around.ask predicate values state).2,
          made ++ [.ask predicate values (around.ask predicate values state).1]) := rfl
    simp only [run, calls, hnoted]
    rcases around.ask predicate values state with ⟨error | answer, reached⟩
    · dsimp only
      split
      · rfl
      · simp only [ih, List.append_assoc, List.singleton_append]
    · simp only [ih, List.append_assoc, List.singleton_append]
  | report entry next ih => exact ih (around.report entry state) made

namespace Check

/-- What a check calls for after the calls that it has made. -/
inductive Due (check : Check) : List Call → Call.Demand → Prop
  | names : Due check [] .names
  | column {available columns : List Value} {before after : List String} {name : String}
      (hpresent : ∀ name ∈ check.columns, Value.text name ∈ available)
      (hnames : check.columns = before ++ name :: after)
      (hcolumns : columns.length = before.length) :
      Due check (.names (.ok available) :: fetches before columns) (.column name)
  | verdict {available columns : List Value} {count : Nat} {rows : List (List Value)}
      {verdicts : List (Except Raised Bool)} {values : List Value}
      (hpresent : ∀ name ∈ check.columns, Value.text name ∈ available)
      (hcolumns : columns.length = check.columns.length) (hsome : columns ≠ [])
      (hlength : ∀ column ∈ columns, column.length = .ok count)
      (hrows : rows.length < count) (hread : RowsFrom columns 0 (rows ++ [values]))
      (hverdicts : verdicts.length = rows.length) (hstay : ∀ verdict ∈ verdicts, Stays verdict) :
      Due check
        (.names (.ok available) :: fetches check.columns columns ++ check.asks rows verdicts)
        (.verdict check.predicate values)

/-- Calls each of which is the one that is due after those before it. -/
inductive InTurn (check : Check) : List Call → Prop
  | nil : InTurn check []
  | snoc {calls : List Call} {call : Call} (h : InTurn check calls)
      (hdue : ∀ demand, check.Due calls demand ↔ demand = call.demand) :
      InTurn check (calls ++ [call])

section Shape

theorem length_fetches {names : List String} {columns : List Value}
    (h : columns.length = names.length) : (fetches names columns).length = names.length := by
  rw [fetches, List.length_zipWith, h, Nat.min_self]

theorem fetches_injective {names : List String} {columns others : List Value}
    (hcolumns : columns.length = names.length) (hothers : others.length = names.length)
    (h : fetches names columns = fetches names others) : columns = others := by
  induction names generalizing columns others with
  | nil => rw [List.length_eq_zero_iff.mp hcolumns, List.length_eq_zero_iff.mp hothers]
  | cons name rest ih =>
    obtain ⟨column, columns, rfl⟩ := List.exists_cons_of_length_eq_add_one hcolumns
    obtain ⟨other, others, rfl⟩ := List.exists_cons_of_length_eq_add_one hothers
    simp only [fetches, List.zipWith_cons_cons, List.cons.injEq, Call.column.injEq,
      Except.ok.injEq, true_and] at h
    rw [h.1, ih (by simpa using hcolumns) (by simpa using hothers) h.2]

theorem fetches_concat {names : List String} {columns : List Value}
    (h : columns.length = names.length) (name : String) (column : Value) :
    fetches (names ++ [name]) (columns ++ [column]) =
      fetches names columns ++ [.column name (.ok column)] :=
  List.zipWith_append h.symm

variable {check : Check} {rows others : List (List Value)}
  {verdicts otherVerdicts : List (Except Raised Bool)}

theorem map_demand_asks (h : verdicts.length = rows.length) :
    (check.asks rows verdicts).map Call.demand = rows.map (.verdict check.predicate) := by
  induction rows generalizing verdicts with
  | nil => rfl
  | cons values rest ih =>
    obtain ⟨verdict, verdicts, rfl⟩ := List.exists_cons_of_length_eq_add_one h
    have hlength : verdicts.length = rest.length := by simpa using h
    simpa [asks, Call.demand] using ih hlength

/-- The calls of the predicate tell the rows. -/
theorem rows_of_asks_eq (hverdicts : verdicts.length = rows.length)
    (hothers : otherVerdicts.length = others.length)
    (h : check.asks rows verdicts = check.asks others otherVerdicts) : rows = others := by
  have hdemands := congrArg (List.map Call.demand) h
  rw [map_demand_asks hverdicts, map_demand_asks hothers] at hdemands
  exact List.map_injective_iff.mpr (fun _ _ heq => (Call.Demand.verdict.inj heq).2) hdemands

theorem asks_concat (h : verdicts.length = rows.length) (values : List Value)
    (verdict : Except Raised Bool) :
    check.asks (rows ++ [values]) (verdicts ++ [verdict]) =
      check.asks rows verdicts ++ [.ask check.predicate values verdict] :=
  List.zipWith_append h.symm

theorem RowIs.unique {columns values others : List Value} {index : Nat}
    (h : RowIs columns index values) (hothers : RowIs columns index others) : values = others := by
  rw [← rowAt_eq_ok_iff] at h hothers
  exact Except.ok.inj (h.symm.trans hothers)

theorem RowsFrom.concat_iff {columns values : List Value} {index : Nat} :
    RowsFrom columns index (rows ++ [values]) ↔
      RowsFrom columns index rows ∧ RowIs columns (index + rows.length) values := by
  constructor
  · intro h
    refine ⟨fun offset found hfound => h offset found ?_, h rows.length values (by simp)⟩
    rw [List.getElem?_append_left (List.getElem?_eq_some_iff.mp hfound).1, hfound]
  · rintro ⟨hrows, hlast⟩ offset found hfound
    rcases lt_trichotomy offset rows.length with hlt | rfl | hgt
    · rw [List.getElem?_append_left hlt] at hfound
      exact hrows offset found hfound
    · obtain rfl : values = found := by simpa using hfound
      exact hlast
    · rw [List.getElem?_eq_none (by simp; omega)] at hfound
      cases hfound

end Shape

variable {check : Check} {available columns : List Value}

/-- Where all columns have been fetched, what is due is a verdict on a row that the columns still
    have. -/
theorem Due.of_fetched {made asked : List Call} {demand : Call.Demand} (h : check.Due made demand)
    (hcolumns : columns.length = check.columns.length)
    (hmade : made = .names (.ok available) :: fetches check.columns columns ++ asked) :
    ∃ count rows verdicts values, columns ≠ [] ∧ (∀ column ∈ columns, column.length = .ok count) ∧
      rows.length < count ∧ RowsFrom columns 0 (rows ++ [values]) ∧ verdicts.length = rows.length ∧
      asked = check.asks rows verdicts ∧ demand = .verdict check.predicate values := by
  cases h with
  | names => cases hmade
  | @column _ _ before after name _ hnames hserved =>
    -- a column is due only while fewer calls have been made than there are columns
    have hlength := congrArg List.length hmade
    rw [List.length_cons, length_fetches hserved, List.length_append, List.length_cons,
      length_fetches hcolumns, hnames] at hlength
    simp only [List.length_append, List.length_cons] at hlength
    omega
  | @verdict _ others count rows verdicts values _ hothers hsome hlength hrows hread hverdicts _ =>
    rw [List.cons_append, List.cons_append, List.cons.injEq] at hmade
    have hsame := (length_fetches hothers).trans (length_fetches hcolumns).symm
    obtain ⟨hfetches, hasks⟩ := List.append_inj hmade.2 hsame
    obtain rfl := fetches_injective hothers hcolumns hfetches
    exact ⟨count, rows, verdicts, values, hsome, hlength, hrows, hread, hverdicts, hasks.symm, rfl⟩

/-- Whatever calls have been made, at most one is due. -/
theorem Due.unique {made : List Call} {demand other : Call.Demand} (h : check.Due made demand)
    (hother : check.Due made other) : demand = other := by
  cases h with
  | names =>
    generalize hmade : ([] : List Call) = made at hother
    cases hother with
    | names => rfl
    | column => cases hmade
    | verdict => cases hmade
  | @column _ served before after name hpresent hnames hserved =>
    generalize hmade : _ :: fetches before served = made at hother
    cases hother with
    | names => cases hmade
    | @column _ others earlier later found _ hagain hothers =>
      -- as many have been fetched, so the next one stands at the same place
      have hlength := congrArg List.length hmade
      rw [List.length_cons, List.length_cons, length_fetches hserved, length_fetches hothers]
        at hlength
      have hrest := (List.append_inj (hnames.symm.trans hagain) (by omega)).2
      rw [(List.cons.inj hrest).1]
    | @verdict _ others _ _ _ _ _ hothers =>
      obtain ⟨_, _, _, _, -, -, -, -, -, -, hdemand⟩ :=
        (Due.column hpresent hnames hserved).of_fetched hothers hmade
      cases hdemand
  | @verdict _ others _ _ _ _ _ hothers _ _ _ hread hverdicts _ =>
    obtain ⟨_, found, again, last, -, -, -, hagain, hlast, hasks, rfl⟩ :=
      hother.of_fetched hothers rfl
    obtain rfl := rows_of_asks_eq hverdicts hlast hasks
    have hvalues := (RowsFrom.concat_iff.mp hread).2.unique (RowsFrom.concat_iff.mp hagain).2
    rw [hvalues]

namespace InTurn

theorem concat {made : List Call} (h : check.InTurn made) (call : Call)
    (hdue : check.Due made call.demand) : check.InTurn (made ++ [call]) :=
  .snoc h fun _ => ⟨fun hother => hother.unique hdue, fun heq => heq ▸ hdue⟩

theorem names (answer : Except Raised (List Value)) : check.InTurn [.names answer] :=
  InTurn.nil.concat (.names answer) .names

variable (hpresent : ∀ name ∈ check.columns, Value.text name ∈ available)

include hpresent

theorem fetches {before after : List String} (hnames : check.columns = before ++ after)
    (hcolumns : columns.length = before.length) :
    check.InTurn (.names (.ok available) :: Check.fetches before columns) := by
  -- from the end: the last column is due after the others, which are before it in the check
  induction before using List.reverseRecOn generalizing after columns with
  | nil => exact .names _
  | append_singleton before name ih =>
    obtain ⟨columns, column, rfl⟩ :=
      (List.eq_nil_or_concat' columns).resolve_left (by rintro rfl; simp at hcolumns)
    have hearlier : columns.length = before.length := by simpa using hcolumns
    rw [List.append_assoc, List.singleton_append] at hnames
    rw [fetches_concat hearlier, ← List.cons_append]
    exact (ih hnames hearlier).concat (.column name (.ok column))
      (.column hpresent hnames hearlier)

theorem asks {count : Nat} {rows : List (List Value)} {verdicts : List (Except Raised Bool)}
    (hcolumns : columns.length = check.columns.length) (hsome : columns ≠ [])
    (hlength : ∀ column ∈ columns, column.length = .ok count) (hrows : rows.length ≤ count)
    (hread : RowsFrom columns 0 rows) (hverdicts : verdicts.length = rows.length)
    (hstay : ∀ verdict ∈ verdicts, Stays verdict) :
    check.InTurn (.names (.ok available) :: Check.fetches check.columns columns ++
      check.asks rows verdicts) := by
  induction rows using List.reverseRecOn generalizing verdicts with
  | nil =>
    rw [Check.asks, List.zipWith_nil_left, List.append_nil]
    exact fetches hpresent (List.append_nil _).symm hcolumns
  | append_singleton rows values ih =>
    obtain ⟨verdicts, verdict, rfl⟩ :=
      (List.eq_nil_or_concat' verdicts).resolve_left (by rintro rfl; simp at hverdicts)
    have hearlier : verdicts.length = rows.length := by simpa using hverdicts
    have hstays : ∀ other ∈ verdicts, Stays other := fun other hother =>
      hstay other (List.mem_append_left _ hother)
    rw [List.length_append, List.length_singleton] at hrows
    rw [asks_concat hearlier, ← List.append_assoc]
    have hdue := Due.verdict hpresent hcolumns hsome hlength hrows hread hearlier hstays
    have hasked := ih (by omega) (RowsFrom.concat_iff.mp hread).1 hearlier hstays
    exact hasked.concat (.ask check.predicate values verdict) hdue

end InTurn

section Finds

variable {calls : List Call} {outcome : Outcome}

theorem answered_of_mem_fetches {names : List String} {call : Call}
    (h : call ∈ fetches names columns) : call.Answered := by
  rw [fetches, ← List.map_uncurry_zip_eq_zipWith] at h
  obtain ⟨⟨name, column⟩, -, rfl⟩ := List.mem_map.mp h
  exact ⟨column, rfl⟩

theorem answered_of_mem_asks {rows : List (List Value)} {verdicts : List (Except Raised Bool)}
    (hstay : ∀ verdict ∈ verdicts, Stays verdict) {call : Call}
    (h : call ∈ check.asks rows verdicts) : call.Answered := by
  rw [asks, ← List.map_uncurry_zip_eq_zipWith] at h
  obtain ⟨⟨values, verdict⟩, hpair, rfl⟩ := List.mem_map.mp h
  exact hstay verdict (List.of_mem_zip hpair).2

theorem Finds.answered (h : check.Finds calls outcome) : ∀ call ∈ calls, call.Answered := by
  have hnames (available : List Value) : (Call.names (.ok available)).Answered := ⟨available, rfl⟩
  cases h with
  | missing => simpa using hnames _
  | unequal =>
    exact List.forall_mem_cons.mpr ⟨hnames _, fun call hcall => answered_of_mem_fetches hcall⟩
  | evaluated _ _ _ _ _ _ _ hstay =>
    refine List.forall_mem_append.mpr ⟨List.forall_mem_cons.mpr ⟨hnames _, fun call hcall => ?_⟩,
      fun call hcall => answered_of_mem_asks hstay hcall⟩
    exact answered_of_mem_fetches hcall

theorem Finds.inTurn (h : check.Finds calls outcome) : check.InTurn calls := by
  cases h with
  | missing => exact .names _
  | unequal hpresent hcolumns => exact .fetches hpresent (List.append_nil _).symm hcolumns
  | @evaluated _ columns _ rows verdicts _ hpresent hcolumns hlength hempty hrows hread hverdicts
      hstay =>
    by_cases hsome : columns = []
    · -- without columns there is no row to ask about
      obtain rfl := List.length_eq_zero_iff.mp (hrows.trans (hempty hsome))
      rw [asks, List.zipWith_nil_left, List.append_nil]
      exact .fetches hpresent (List.append_nil _).symm hcolumns
    · exact .asks hpresent hcolumns hsome hlength hrows.le hread (hverdicts.trans hrows.symm) hstay

theorem Due.present {made rest : List Call} {demand : Call.Demand} (h : check.Due made demand)
    (hmade : made = .names (.ok available) :: rest) :
    ∀ name ∈ check.columns, Value.text name ∈ available := by
  cases h <;> cases hmade <;> assumption

/-- A check that has found its outcome calls for nothing more. -/
theorem Finds.not_due (h : check.Finds calls outcome) (demand : Call.Demand) :
    ¬ check.Due calls demand := by
  intro hdue
  cases h with
  | missing hmissing hsome =>
    apply hsome
    rw [hmissing, List.filter_eq_nil_iff]
    simpa using hdue.present rfl
  | @unequal _ _ lengths _ hcolumns hlengths hdiffer =>
    obtain ⟨count, _, _, _, _, hlength, -⟩ := hdue.of_fetched hcolumns (List.append_nil _).symm
    obtain ⟨a, ha, b, hb, hne⟩ := hdiffer
    have hcount {length : Nat} (h : length ∈ lengths) : length = count := by
      obtain ⟨column, hcolumn, hown⟩ := exists_of_forall₂_left hlengths.flip h
      exact Except.ok.inj (hown.symm.trans (hlength column hcolumn))
    exact hne ((hcount ha).trans (hcount hb).symm)
  | evaluated _ hcolumns hlength _ hrows _ hverdicts =>
    obtain ⟨count, rows, verdicts, _, hsome, hagain, hfew, -, hequal, hasks, -⟩ :=
      hdue.of_fetched hcolumns rfl
    obtain ⟨column, hcolumn⟩ := List.exists_mem_of_ne_nil _ hsome
    have hcount := Except.ok.inj ((hlength column hcolumn).symm.trans (hagain column hcolumn))
    obtain rfl := rows_of_asks_eq (hverdicts.trans hrows.symm) hequal hasks
    omega

end Finds

/-- A check without columns asks its predicate nothing. -/
theorem columns_ne_nil_of_ask {σ : Type} {around : Surroundings σ} {state : σ}
    {predicate : Callable} {values : List Value} {verdict : Except Raised Bool}
    (h : .ask predicate values verdict ∈ check.inquire.calls around state) :
    check.columns ≠ [] := by
  intro hnone
  obtain ⟨outcome, hdone⟩ : ∃ outcome, check.inquireColumns [] =
      .report (check.runningEntry 0) (.done outcome) := ⟨_, rfl⟩
  rw [inquire, Inquiry.calls] at h
  split at h
  · simp [missingColumns, hnone, fetchColumns, hdone, Inquiry.calls] at h
  · simp at h

section Stops

variable {calls : List Call} {error : Raised}

/-- A check that is ended by an error has made its calls in turn, and the last of them raised the
    error, as long as the columns that were served can be read. -/
theorem Stops.inTurn (h : check.Stops calls error)
    (hreadable : ∀ name column, .column name (.ok column) ∈ calls → column.Readable)
    (hasked : ∀ predicate values verdict, .ask predicate values verdict ∈ calls →
      check.columns ≠ []) :
    check.InTurn calls ∧ ∃ before call, calls = before ++ [call] ∧ call.Raises error := by
  have hserved {served : List Value} (hcolumns : served.length = check.columns.length)
      (hcalls : ∀ call ∈ fetches check.columns served, call ∈ calls) {column : Value}
      (hcolumn : column ∈ served) : column.Readable := by
    obtain ⟨name, hmem⟩ := exists_mem_fetches hcolumns hcolumn
    exact hreadable name column (hcalls _ hmem)
  cases h with
  | names => exact ⟨.names _, [], _, rfl, .names⟩
  | @column _ _ _ _ name _ hpresent hnames hcolumns =>
    have hfetched := InTurn.fetches hpresent hnames hcolumns
    have hdue := Due.column hpresent hnames hcolumns
    exact ⟨hfetched.concat (.column name (.error error)) hdue, _, _, rfl, .column⟩
  -- neither the length nor a value of a column that can be read is an error
  | length _ hcolumns hcolumn hlength =>
    obtain ⟨count, hcount, _⟩ := hserved hcolumns (fun call h => List.mem_cons_of_mem _ h) hcolumn
    rw [hlength] at hcount
    cases hcount
  | item _ hcolumns hlengths hrows _ _ _ hcolumn hitem =>
    obtain ⟨count, hcount, hitems⟩ := hserved hcolumns (fun call h => by simp [h]) hcolumn
    rw [hlengths _ hcolumn, Except.ok.injEq] at hcount
    obtain ⟨value, hvalue⟩ := hitems _ (hcount ▸ hrows)
    rw [hitem] at hvalue
    cases hvalue
  | @escape _ served _ rows verdicts values _ hpresent hcolumns hlength hrows hread hverdicts hstay
      hescapes =>
    have hsome : served ≠ [] := by
      rintro rfl
      exact hasked check.predicate values (.error error) (by simp)
        (List.length_eq_zero_iff.mp hcolumns.symm)
    have hasked := InTurn.asks hpresent hcolumns hsome hlength hrows.le
      (RowsFrom.concat_iff.mp hread).1 hverdicts hstay
    have hdue := Due.verdict hpresent hcolumns hsome hlength hrows hread hverdicts hstay
    exact ⟨hasked.concat (.ask check.predicate values (.error error)) hdue, _, _, rfl,
      .ask hescapes⟩

end Stops

/-- As long as the columns that are served can be read, a check makes its calls in turn, whatever
    they are answered. Either none of them raises an error that ends it; then it ends with an
    outcome when nothing is due any more. Or the last one does, and the check ends with that
    error. -/
theorem calls_inTurn {σ : Type} (around : Surroundings σ) (check : Check) (state final : σ)
    {result : Except Fault Outcome} {calls : List Call}
    (hrun : check.inquire.run around.noting (state, []) = (result, final, calls))
    (hreadable : ∀ name column, .column name (.ok column) ∈ calls → column.Readable) :
    check.inquire.run around state = (result, final) ∧ check.InTurn calls ∧
      ((∃ outcome, result = .ok outcome) ∧ (∀ call ∈ calls, call.Answered) ∧
          (∀ demand, ¬ check.Due calls demand) ∨
        ∃ before call error, calls = before ++ [call] ∧ call.Raises error ∧
          result = .error (.raised error)) := by
  rw [Inquiry.run_noting, List.nil_append, Prod.mk.injEq, Prod.mk.injEq] at hrun
  obtain ⟨rfl, rfl, rfl⟩ := hrun
  refine ⟨rfl, ?_⟩
  have hends := ends_inquire around check state
  have hasked := @columns_ne_nil_of_ask check σ around state
  generalize check.inquire.calls around state = calls at hends hreadable hasked ⊢
  generalize (check.inquire.run around state).1 = result at hends ⊢
  cases hends with
  | @finds outcome h => exact ⟨h.inTurn, .inl ⟨⟨outcome, rfl⟩, h.answered, h.not_due⟩⟩
  | @stops error h =>
    obtain ⟨hturn, before, call, hlast, hraises⟩ := h.inTurn hreadable fun _ _ _ => hasked
    exact ⟨hturn, .inr ⟨before, call, error, hlast, hraises, rfl⟩⟩

/-- Two columns that are fetched in the order of the check, and three rows of which two fail. -/
theorem calls_inTurn_compared :
    let around := (Source.mapping [(.text "a", .list [.int 1, .int 2, .int 5]),
      (.text "b", .list [.int 3, .null, .int 4])]).surroundings
    let check : Check := ⟨"more", .library .safeGreater, ["b", "a"]⟩
    let calls : List Call :=
      [.names (.ok [.text "a", .text "b"]), .column "b" (.ok (.list [.int 3, .null, .int 4])),
        .column "a" (.ok (.list [.int 1, .int 2, .int 5])),
        .ask check.predicate [.int 3, .int 1] (.ok true),
        .ask check.predicate [.null, .int 2] (.ok false),
        .ask check.predicate [.int 4, .int 5] (.ok false)]
    (∀ name column, .column name (.ok column) ∈ calls → column.Readable) ∧
      ∃ result final, check.inquire.run around.noting ({}, []) = (result, final, calls) ∧
        check.InTurn calls ∧ (∃ outcome, result = .ok outcome) ∧
        ∀ demand, ¬ check.Due calls demand := by
  intro around check calls
  have hcalls : check.inquire.calls around {} = calls := by cbv
  have hreadable : ∀ name column, .column name (.ok column) ∈ calls → column.Readable := by
    intro name column h
    obtain ⟨-, rfl⟩ | ⟨-, rfl⟩ : name = "b" ∧ column = .list [.int 3, .null, .int 4] ∨
        name = "a" ∧ column = .list [.int 1, .int 2, .int 5] := by simpa [calls] using h
    · exact readable_list _
    · exact readable_list _
  have hrun := Inquiry.run_noting around check.inquire {} []
  rw [hcalls, List.nil_append] at hrun
  refine ⟨hreadable, _, _, hrun, ?_⟩
  obtain ⟨-, hturn, ⟨houtcome, -, hnone⟩ | ⟨before, call, error, hlast, hraises, -⟩⟩ :=
    calls_inTurn around check {} _ hrun hreadable
  · exact ⟨hturn, houtcome, hnone⟩
  · obtain rfl : .ask check.predicate [.int 4, .int 5] (.ok false) = call := by
      simpa [calls] using congrArg List.getLast? hlast
    cases hraises

end Check

end TableAudit
