import TableAudit.Outcome.Basic
import TableAudit.Value.Order

namespace TableAudit

/-- Two rows of values are equal if they have equal values under the same labels. -/
def Labelled.equals (a b : Labelled Value) : Bool :=
  a.size == b.size &&
    a.entries.all fun entry =>
      match b.get? entry.1 with
      | some value => Value.equals entry.2 value
      | none => false

namespace Outcome

def equalValues : List RowValues → List RowValues → Bool
  | [], [] => true
  | a :: as, b :: bs => a.equals b && equalValues as bs
  | _, _ => false

/-- Two outcomes are equal in all their parts. -/
def equals (a b : Outcome) : Bool :=
  a.passed == b.passed && a.rows == b.rows && equalValues a.values b.values &&
    a.message == b.message && a.total == b.total

/-- Whether an outcome comes before another. -/
def before (a b : Outcome) : Bool :=
  if a.passed != b.passed then b.passed else a.failureCount > b.failureCount

/-- The four comparisons, all from `before` and equality. -/
def compares (op : Comparison) (a b : Outcome) : Bool :=
  match op with
  | .less => a.before b
  | .lessEqual => a.before b || a.equals b
  | .greater => !a.before b && !a.equals b
  | .greaterEqual => !a.before b

end Outcome

end TableAudit
