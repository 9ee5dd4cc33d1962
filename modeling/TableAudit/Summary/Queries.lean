import TableAudit.Check.Fault
import TableAudit.Check.Basic
import TableAudit.Summary.Basic
import TableAudit.Summary.Rate

namespace TableAudit

namespace Summary

def failedChecks (summary : Summary) : List String :=
  (summary.outcomes.entries.filter fun entry => !entry.2.passed).map Prod.fst

def passedChecks (summary : Summary) : List String :=
  (summary.outcomes.entries.filter fun entry => entry.2.passed).map Prod.fst

/-- The number of failing rows, counted for each check. -/
def totalFailures (summary : Summary) : Nat :=
  summary.outcomes.values.foldr (fun outcome count => outcome.failureCount + count) 0

/-- The outcome of a check that must be there. -/
def outcomeOf (summary : Summary) (check : String) : Except Fault Outcome :=
  match summary.outcome? check with
  | some outcome => .ok outcome
  | none => .error (.notFound (.text check) (.text summary.name))

/-- Merges ascending lists of rows. -/
def mergeRows : List Int → List Int → List Int
  | [], bs => bs
  | as, [] => as
  | a :: as, b :: bs =>
    if a < b then a :: mergeRows as (b :: bs)
    else if b < a then b :: mergeRows (a :: as) bs
    else a :: mergeRows as bs
termination_by as bs => as.length + bs.length

/-- The rows that failed some check, ascending. -/
def failingRows (summary : Summary) : List Int :=
  (summary.outcomes.values.map Outcome.rows).foldl mergeRows []

/-- The rows that failed a check. -/
def failingRowsOf (summary : Summary) (check : String) : Except Fault (List Int) :=
  (summary.outcomeOf check).map Outcome.rows

/-- The number of rows of the longest evaluation. -/
def rowCount (summary : Summary) : Int :=
  (summary.outcomes.values.map Outcome.total).foldl max 0

def rateOf (passed total : Int) : Except Fault Rate :=
  match Rate.ofRows passed.toNat total.toNat with
  | .ok rate => .ok rate
  | .error error => .error (.raised error)

/-- The rate of rows that passed every check. A check whose rows were not evaluated counts every
    row as failing. -/
def passRate (summary : Summary) : Except Fault Rate :=
  let outcomes := summary.outcomes.values
  let total := summary.rowCount
  if total = 0 then .ok (if outcomes.all Outcome.passed then .full else .zero)
  else if outcomes.any Outcome.isUnevaluated then .ok .zero
  else rateOf (total - summary.failingRows.length) total

end Summary

/-- The rate of rows that passed. -/
def Outcome.passRate (outcome : Outcome) : Except Fault Rate :=
  if outcome.total = 0 then .ok (if outcome.passed then .full else .zero)
  else Summary.rateOf (outcome.total - outcome.failureCount) outcome.total

/-- The rate of rows that passed a check. -/
def Summary.passRateOf (summary : Summary) (check : String) : Except Fault Rate :=
  (summary.outcomeOf check).bind Outcome.passRate

/-- The columns of the first check of a name. -/
def CheckSet.columnsOf (set : CheckSet) (check : String) : Except Fault (List String) :=
  match set.checks.find? fun c => c.name == check with
  | some c => .ok c.columns
  | none => .error (.notFound (.text check) (.text set.name))

end TableAudit
