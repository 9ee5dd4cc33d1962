import TableAudit.Check.Basic
import TableAudit.Outcome.Basic
import TableAudit.Run.Inquiry
import TableAudit.Value.Truth

namespace TableAudit

namespace Check

def quoted (check : Check) : String :=
  Text.Quoted.quote check.name

def engineEntry (level : Level) (message : String) : Entry :=
  { level := level, reporter := .engine, message := message }

def missingMessage (missing : List String) : String :=
  joinWith ", " missing

/-- The columns of a check that are not available. -/
def missingColumns (check : Check) (available : List Value) : List String :=
  check.columns.filter fun name => !available.any fun value => Value.equals (.text name) value

/-- The columns with their lengths. -/
def lengthsText (columns : List String) (lengths : List Nat) : String :=
  joinWith ", "
    (List.zipWith (fun name length => name ++ "=" ++ toString length) columns lengths)

/-- Whether all lengths are the same. -/
def sameLength : List Nat → Bool
  | [] => true
  | first :: rest => rest.all (· == first)

/-- The values of columns at a position. -/
def rowAt (columns : List Value) (index : Nat) : Except Raised (List Value) :=
  columns.mapM fun column => column.item index

/-- What has been found among the rows before the next. -/
structure Findings where
  /-- The rows that failed, the last one first, with their values. -/
  failures : List (Int × RowValues)
  /-- How many rows raised an error. -/
  errors : Nat

namespace Findings

def none : Findings :=
  ⟨[], 0⟩

def rows (found : Findings) : List Int :=
  found.failures.reverse.map Prod.fst

def values (found : Findings) : List RowValues :=
  found.failures.reverse.map Prod.snd

def addFailure (found : Findings) (row : Int) (values : RowValues) : Findings :=
  { found with failures := (row, values) :: found.failures }

end Findings

/-- The values of a row by column; a column that is named twice has one place. -/
def rowValues (check : Check) (values : List Value) : RowValues :=
  Labelled.ofList (check.columns.zip values)

def raisedEntry (check : Check) (row : Nat) (error : Raised) : Entry :=
  engineEntry .debug
    ("Check " ++ check.quoted ++ ": predicate raised on row " ++ toString row ++ ": " ++
      error.literal)

def raisedCountEntry (check : Check) (errors total : Nat) : Entry :=
  engineEntry .debug
    ("Check " ++ check.quoted ++ ": predicate raised on " ++ toString errors ++ " of " ++
      toString total ++ " rows")

/-- Evaluates as many rows as the first number says, from the position on. Only the first error is
    reported at once. -/
def evaluateRows (check : Check) (columns : List Value) :
    Nat → Nat → Findings → Inquiry Findings
  | 0, _, found => .done found
  | count + 1, index, found =>
    match rowAt columns index with
    | .error error => .fail (.raised error)
    | .ok values =>
      .ask check.predicate values fun verdict =>
        match verdict with
        | .ok true => evaluateRows check columns count (index + 1) found
        | .ok false =>
          evaluateRows check columns count (index + 1)
            (found.addFailure (index + 1) (check.rowValues values))
        | .error error =>
          let next :=
            evaluateRows check columns count (index + 1)
              ({ found with errors := found.errors + 1 }.addFailure (index + 1)
                (check.rowValues values))
          if found.errors = 0 then .report (check.raisedEntry (index + 1) error) next else next

/-- Evaluates all rows, and reports how many raised an error. -/
def evaluate (check : Check) (columns : List Value) (total : Nat) : Inquiry Findings :=
  (evaluateRows check columns total 0 Findings.none).bind fun found =>
    if found.errors = 0 then .done found
    else .report (check.raisedCountEntry found.errors total) (.done found)

/-- The outcome of what was found. -/
def outcomeOf (found : Findings) (total : Nat) : Inquiry Outcome :=
  match Outcome.ofFailures found.rows found.values total with
  | .ok outcome => .done outcome
  | .error issues => .fail (.invalid issues)

def missingEntry (check : Check) (missing : List String) : Entry :=
  { level := .warning
    reporter := .engine
    message :=
      "Check " ++ check.quoted ++ ": required columns not found: " ++ missingMessage missing
    check := some check.name }

def unequalEntry (check : Check) (detail : String) : Entry :=
  { level := .warning
    reporter := .engine
    message := "Check " ++ check.quoted ++ ": column lengths differ: " ++ detail
    check := some check.name }

def runningEntry (check : Check) (total : Nat) : Entry :=
  engineEntry .debug
    ("Running check " ++ check.quoted ++ " over " ++ toString total ++ " rows")

/-- Evaluates a check on columns that were fetched. -/
def inquireColumns (check : Check) (columns : List Value) : Inquiry Outcome :=
  match columns.mapM Value.length with
  | .error error => .fail (.raised error)
  | .ok lengths =>
    if sameLength lengths then
      let total := lengths.headD 0
      .report (check.runningEntry total)
        ((check.evaluate columns total).bind fun found => outcomeOf found total)
    else
      let detail := lengthsText check.columns lengths
      .report (check.unequalEntry detail)
        (.done (.unevaluated ("Column lengths differ: " ++ detail)))

/-- Fetches columns in order, after those already fetched. -/
def fetchColumns : List String → List Value → (List Value → Inquiry Outcome) → Inquiry Outcome
  | [], fetched, next => next fetched
  | name :: rest, fetched, next =>
    .column name fun column => fetchColumns rest (fetched ++ [column]) next

/-- Evaluates a check. -/
def inquire (check : Check) : Inquiry Outcome :=
  .names fun available =>
    match check.missingColumns available with
    | [] => fetchColumns check.columns [] check.inquireColumns
    | missing =>
      .report (check.missingEntry missing)
        (.done (.unevaluated ("Required columns not found: " ++ missingMessage missing)))

end Check

end TableAudit
