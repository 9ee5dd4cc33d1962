import TableAudit.Subject.Basic

namespace TableAudit

/-- Two lists of labelled outcomes hold equal ones under the same labels. -/
def Summary.equalOutcomes (a b : Labelled Outcome) : Bool :=
  a.size == b.size &&
    a.entries.all fun entry =>
      match b.get? entry.1 with
      | some outcome => entry.2.equals outcome
      | none => false

/-- Two summaries are equal in all their parts, whatever the order of the checks. -/
def Summary.equals (a b : Summary) : Bool :=
  a.name == b.name && equalOutcomes a.outcomes b.outcomes && a.elapsed == b.elapsed

namespace Subject

/-- Whether two subjects are equal. One that is the same as the other is equal to it, unless it is
    a value that differs from itself. -/
def equals (same : Bool) (a b : Subject) : Bool :=
  match a, b with
  | summary x, summary y => same || x.equals y
  | checkSet x, checkSet y => same || x == y
  | outcome x, outcome y => same || x.equals y
  | value x, value y => x.equals y
  | _, _ => false

/-- Whether a comparison holds of two subjects, of which `same` says that they are one. -/
def compares (op : Comparison) (same : Bool) (a b : Subject) : Except Raised Bool :=
  match a, b with
  | outcome x, outcome y =>
    if same then .ok (op == .lessEqual || op == .greaterEqual) else .ok (x.compares op y)
  | value x, value y => Value.compares op x y
  | _, _ => .error (Value.unorderedError op a.typeName b.typeName)

end Subject

end TableAudit
