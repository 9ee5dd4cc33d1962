import TableAudit.Field.Issue
import TableAudit.Labelled
import TableAudit.Value.Equality

namespace TableAudit

/-- The values of a row by column. -/
abbrev RowValues :=
  Labelled Value

/-- Why the parts of an outcome do not fit together. -/
inductive Flaw
  | lengths (rows values : Nat)
  | misplaced (position total : Int)
  | passedWithRows
  | failedWithoutRows
deriving DecidableEq, Repr

def Flaw.message : Flaw → String
  | lengths rows values =>
    "failing_rows (" ++ toString rows ++ ") and failing_values (" ++ toString values ++
      ") must have the same length"
  | misplaced position total =>
    "failing row " ++ toString position ++ " must be ascending and within [1, " ++
      toString total ++ "]"
  | passedWithRows => "a passed result cannot have failing rows"
  | failedWithoutRows => "a failed result without failing rows must have total_rows == 0"

/-- The first row that does not come after the one before it, or comes after the last. -/
def firstMisplaced (total : Int) : Int → List Int → Option Int
  | _, [] => none
  | previous, row :: rest =>
    if row ≤ previous ∨ total < row then some row else firstMisplaced total row rest

/-- The first flaw of the parts of an outcome. -/
def firstFlaw (passed : Bool) (rows : List Int) (valueCount : Nat) (total : Int) : Option Flaw :=
  if rows.length ≠ valueCount then some (.lengths rows.length valueCount)
  else
    match firstMisplaced total 0 rows with
    | some row => some (.misplaced row total)
    | none =>
      if passed && !rows.isEmpty then some .passedWithRows
      else if !passed && rows.isEmpty && total != 0 then some .failedWithoutRows
      else none

/-- What a check found in a table. -/
structure Outcome where
  passed : Bool
  /-- The positions of the rows that failed. -/
  rows : List Int
  /-- The values of these rows, in the same order. -/
  values : List RowValues
  message : String
  /-- How many rows were evaluated. -/
  total : Int
  total_nonneg : 0 ≤ total
  consistent : firstFlaw passed rows values.length total = none

namespace Outcome

/-- The outcome of these parts, unless they do not fit together. -/
def make (passed : Bool) (rows : List Int) (values : List RowValues) (message : String)
    (total : Int) : Except (List Issue) Outcome :=
  if htotal : 0 ≤ total then
    match hflaw : firstFlaw passed rows values.length total with
    | some flaw => .error [⟨[], .stated flaw.message⟩]
    | none => .ok ⟨passed, rows, values, message, total, htotal, hflaw⟩
  else .error [⟨["total_rows"], .atLeast "0"⟩]

def allPassed : String :=
  "All rows passed"

/-- The message of an outcome with this many failing rows. -/
def messageFor (failures : Nat) : String :=
  if failures = 0 then allPassed else toString failures ++ " rows failed"

/-- The outcome of a check that failed on these rows. -/
def ofFailures (rows : List Int) (values : List RowValues) (total : Int) :
    Except (List Issue) Outcome :=
  make rows.isEmpty rows values (messageFor rows.length) total

/-- The outcome of a check whose rows could not be evaluated. -/
def unevaluated (message : String) : Outcome :=
  ⟨false, [], [], message, 0, Int.le_refl 0, rfl⟩

def failureCount (outcome : Outcome) : Nat :=
  outcome.rows.length

/-- Whether the check failed without a row being evaluated. -/
def isUnevaluated (outcome : Outcome) : Bool :=
  !outcome.passed && outcome.total == 0

end Outcome

end TableAudit
