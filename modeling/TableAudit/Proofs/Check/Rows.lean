import TableAudit.Proofs.Except
import TableAudit.Proofs.Inquiry.Calls
import TableAudit.Run.Check

namespace TableAudit

namespace Check

/-- The values that columns have at a position. -/
def RowIs (columns : List Value) (index : Nat) (values : List Value) : Prop :=
  List.Forall₂ (fun column value => column.item index = .ok value) columns values

theorem rowAt_eq_ok_iff (columns : List Value) (index : Nat) (values : List Value) :
    rowAt columns index = .ok values ↔ RowIs columns index values :=
  mapM_eq_ok_iff _ _ _

/-- The rows of columns from a position on. -/
def RowsFrom (columns : List Value) (index : Nat) (rows : List (List Value)) : Prop :=
  ∀ offset values, rows[offset]? = some values → RowIs columns (index + offset) values

theorem RowsFrom.nil (columns : List Value) (index : Nat) : RowsFrom columns index [] := by
  intro offset values h
  simp at h

theorem RowsFrom.cons {columns : List Value} {index : Nat} {values : List Value}
    {rows : List (List Value)} (hfirst : RowIs columns index values)
    (hrest : RowsFrom columns (index + 1) rows) : RowsFrom columns index (values :: rows) := by
  intro offset found h
  cases offset with
  | zero =>
    rw [List.getElem?_cons_zero, Option.some.injEq] at h
    exact h ▸ hfirst
  | succ offset =>
    have hfound := hrest offset found h
    rwa [Nat.add_right_comm] at hfound

/-- Only a true verdict lets a row pass: neither a false one nor an error does. -/
def passes : Except Raised Bool → Bool
  | .ok verdict => verdict
  | .error _ => false

/-- The error of a verdict does not end the program, if the verdict is one. -/
def Stays (verdict : Except Raised Bool) : Prop :=
  ∀ error, verdict = .error error → error.escapes = false

/-- The calls of the predicate of a check on rows, with its verdicts. -/
def asks (check : Check) (rows : List (List Value)) (verdicts : List (Except Raised Bool)) :
    List Call :=
  List.zipWith (fun values verdict => .ask check.predicate values verdict) rows verdicts

/-- The positions, from zero on, of the rows that do not pass. -/
def failing (verdicts : List (Except Raised Bool)) : List Nat :=
  (List.range verdicts.length).filter fun index => verdicts[index]?.any fun verdict => !passes verdict

theorem failing_cons (verdict : Except Raised Bool) (verdicts : List (Except Raised Bool)) :
    failing (verdict :: verdicts) =
      (if passes verdict then [] else [0]) ++ (failing verdicts).map (· + 1) := by
  unfold failing
  rw [List.length_cons, List.range_succ_eq_map, List.filter_cons, List.filter_map]
  cases hpasses : passes verdict <;> simp [hpasses, Function.comp_def]

/-- The rows that do not pass, numbered from the position of the first row on, with their values. -/
def failuresFrom (check : Check) (index : Nat) (rows : List (List Value))
    (verdicts : List (Except Raised Bool)) : List (Int × RowValues) :=
  (failing verdicts).map fun offset =>
    (((index + offset + 1 : Nat) : Int), check.rowValues (rows.getD offset []))

theorem failuresFrom_cons (check : Check) (index : Nat) (values : List Value)
    (rows : List (List Value)) (verdict : Except Raised Bool)
    (verdicts : List (Except Raised Bool)) :
    check.failuresFrom index (values :: rows) (verdict :: verdicts) =
      (if passes verdict then [] else [(((index + 1 : Nat) : Int), check.rowValues values)]) ++
        check.failuresFrom (index + 1) rows verdicts := by
  unfold failuresFrom
  rw [failing_cons, List.map_append, List.map_map]
  congr 1
  · cases passes verdict <;> simp
  · apply List.map_congr_left
    intro offset _
    simp only [Function.comp_apply, List.getD_cons_succ]
    rw [show index + (offset + 1) + 1 = index + 1 + offset + 1 by omega]

/-- How many verdicts are errors. -/
def errorCount (verdicts : List (Except Raised Bool)) : Nat :=
  verdicts.countP fun verdict => verdict matches .error _

/-- How a sweep over rows that starts at a position may go: its calls, and the failing rows with the
    number of errors that it adds to what was found before, or the error that ended it. -/
inductive Sweep (check : Check) (columns : List Value) (index count : Nat) (found : Findings) :
    List Call → Except Fault Findings → Prop
  | ended (rows : List (List Value)) (verdicts : List (Except Raised Bool))
      (hrows : rows.length = count) (hverdicts : verdicts.length = count)
      (hread : RowsFrom columns index rows) (hstay : ∀ verdict ∈ verdicts, Stays verdict) :
      Sweep check columns index count found (check.asks rows verdicts)
        (.ok ⟨(check.failuresFrom index rows verdicts).reverse ++ found.failures,
          found.errors + errorCount verdicts⟩)
  | unread (rows : List (List Value)) (verdicts : List (Except Raised Bool)) {column : Value}
      {error : Raised} (hrows : rows.length < count) (hverdicts : verdicts.length = rows.length)
      (hread : RowsFrom columns index rows) (hstay : ∀ verdict ∈ verdicts, Stays verdict)
      (hcolumn : column ∈ columns) (hitem : column.item (index + rows.length) = .error error) :
      Sweep check columns index count found (check.asks rows verdicts) (.error (.raised error))
  | escaped (rows : List (List Value)) (verdicts : List (Except Raised Bool))
      {values : List Value} {error : Raised}
      (hrows : rows.length < count) (hverdicts : verdicts.length = rows.length)
      (hread : RowsFrom columns index (rows ++ [values])) (hstay : ∀ verdict ∈ verdicts, Stays verdict)
      (hescapes : error.escapes = true) :
      Sweep check columns index count found
        (check.asks rows verdicts ++ [.ask check.predicate values (.error error)])
        (.error (.raised error))

/-- What a verdict on a row adds to what was found. -/
def Findings.judge (check : Check) (found : Findings) (index : Nat) (values : List Value)
    (verdict : Except Raised Bool) : Findings :=
  ⟨(if passes verdict then [] else [(((index + 1 : Nat) : Int), check.rowValues values)]) ++
      found.failures,
    found.errors + errorCount [verdict]⟩

/-- A sweep goes on from its first row with what the verdict on that row adds. -/
theorem Sweep.cons {check : Check} {columns : List Value} {index count : Nat} {found : Findings}
    {values : List Value} {verdict : Except Raised Bool} {calls : List Call}
    {result : Except Fault Findings} (hfirst : RowIs columns index values) (hstay : Stays verdict)
    (h : check.Sweep columns (index + 1) count (found.judge check index values verdict) calls result) :
    check.Sweep columns index (count + 1) found (.ask check.predicate values verdict :: calls)
      result := by
  have hstays {verdicts : List (Except Raised Bool)} (hrest : ∀ verdict ∈ verdicts, Stays verdict) :
      ∀ other ∈ verdict :: verdicts, Stays other := by
    intro other hmem
    rcases List.mem_cons.1 hmem with rfl | hmem
    · exact hstay
    · exact hrest other hmem
  cases h with
  | ended rows verdicts hrows hverdicts hread hrest =>
    have hfound : (⟨(check.failuresFrom (index + 1) rows verdicts).reverse ++
          (found.judge check index values verdict).failures,
        (found.judge check index values verdict).errors + errorCount verdicts⟩ : Findings) =
        ⟨(check.failuresFrom index (values :: rows) (verdict :: verdicts)).reverse ++ found.failures,
          found.errors + errorCount (verdict :: verdicts)⟩ := by
      rw [failuresFrom_cons]
      unfold Findings.judge errorCount
      cases passes verdict <;> simp [List.countP_cons] <;> omega
    rw [hfound]
    exact .ended _ _ (by simp [hrows]) (by simp [hverdicts]) (.cons hfirst hread) (hstays hrest)
  | unread rows verdicts hrows hverdicts hread hrest hcolumn hitem =>
    refine .unread (values :: rows) (verdict :: verdicts) ?_ ?_ (.cons hfirst hread)
      (hstays hrest) hcolumn ?_
    · simpa using hrows
    · simpa using hverdicts
    · rwa [List.length_cons, ← Nat.add_assoc, Nat.add_right_comm]
  | escaped rows verdicts hrows hverdicts hread hrest hescapes =>
    refine .escaped (values :: rows) (verdict :: verdicts) ?_ ?_ (.cons hfirst hread)
      (hstays hrest) hescapes
    · simpa using hrows
    · simpa using hverdicts

/-- Evaluating rows is a sweep over them, whatever the surroundings answer and in whatever state
    they are. -/
theorem sweep_evaluateRows {σ : Type} (around : Surroundings σ) (check : Check)
    (columns : List Value) (count index : Nat) (found : Findings) (state : σ) :
    check.Sweep columns index count found
      ((check.evaluateRows columns count index found).calls around state)
      ((check.evaluateRows columns count index found).run around state).1 := by
  induction count generalizing index found state with
  | zero =>
    exact .ended [] [] rfl rfl (.nil columns index) (by simp)
  | succ count ih =>
    rw [evaluateRows]
    cases hrow : rowAt columns index with
    | error error =>
      obtain ⟨column, hcolumn, hitem⟩ := exists_of_mapM_eq_error hrow
      exact .unread [] [] (by simp) rfl (.nil columns index) (by simp)
        hcolumn (by simpa using hitem)
    | ok values =>
      have hfirst := (rowAt_eq_ok_iff columns index values).1 hrow
      simp only [Inquiry.calls, Inquiry.run]
      rcases around.ask check.predicate values state with ⟨error | verdict, reached⟩
      · by_cases hescapes : error.escapes = true
        · simp only [hescapes, if_true]
          exact .escaped [] [] (by simp) rfl
            (.cons hfirst (.nil columns _)) (by simp) hescapes
        · simp only [hescapes]
          have hstay : Stays (.error error) := by
            intro other heq
            cases heq
            simpa using hescapes
          have hjudge : ({ found with errors := found.errors + 1 }.addFailure (index + 1)
              (check.rowValues values)) = found.judge check index values (.error error) := by
            simp [Findings.addFailure, Findings.judge, passes, errorCount]
          rw [hjudge]
          apply Sweep.cons hfirst hstay
          -- The report of the first error changes the state only.
          by_cases hfresh : found.errors = 0
          · simp only [hfresh, if_true]
            exact ih (index + 1) _ _
          · simp only [hfresh, if_false]
            exact ih (index + 1) _ _
      · cases verdict with
        | true => exact .cons hfirst (by rintro _ ⟨⟩) (ih (index + 1) found reached)
        | false =>
          have hjudge : found.addFailure (index + 1) (check.rowValues values) =
              found.judge check index values (.ok false) := by
            simp [Findings.addFailure, Findings.judge, passes, errorCount]
          refine .cons hfirst (by rintro _ ⟨⟩) ?_
          rw [← hjudge]
          exact ih (index + 1) _ reached

end Check

end TableAudit
