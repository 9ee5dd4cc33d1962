import TableAudit.Field.Reader
import TableAudit.Outcome.Order

namespace TableAudit

structure Summary where
  /-- The name of the check set. -/
  name : String
  outcomes : Labelled Outcome
  /-- The duration of the run in seconds. -/
  elapsed : Float

namespace Summary

/-- The outcome of a check. -/
def outcome? (summary : Summary) (check : String) : Option Outcome :=
  summary.outcomes.get? check

def passedCount (summary : Summary) : Nat :=
  summary.outcomes.values.countP Outcome.passed

/-- The outcomes in the order of reports; those of which neither comes first keep their order. -/
def ordered (summary : Summary) : List (String × Outcome) :=
  summary.outcomes.entries.mergeSort fun a b => !b.2.before a.2

open TableAudit.Field in
/-- The summary with these fields, its outcomes apart. -/
def ofFields (fields : Fields) (outcomes : Labelled Outcome) (readers : Readers := .standard) :
    Except (List Issue) Summary :=
  let name := Reading.required "checkset_name" readers.text fields
  let elapsed := Reading.withDefault "time_elapsed" 0.0 readers.floatFromZero fields
  match name.value?, elapsed.value? with
  | some name, some elapsed => .ok ⟨name, outcomes, elapsed⟩
  | _, _ => .error (name.issues ++ elapsed.issues)

end Summary

end TableAudit
