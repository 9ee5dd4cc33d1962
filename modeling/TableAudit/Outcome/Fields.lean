import TableAudit.Field.Reader
import TableAudit.Outcome.Basic

namespace TableAudit.Outcome

open TableAudit.Field in
/-- The outcome with these fields. -/
def ofFields (fields : Fields) (readers : Readers := .standard) :
    StateM World (Except (List Issue) Outcome) := do
  let passed := Reading.required "passed" readers.bool fields
  let rows ← Reading.sequenceOf readers "failing_rows" (some []) .listType
    (fun place value => .ofExcept place (readers.int value)) fields
  let values ← Reading.sequenceOf readers "failing_values" (some []) .listType
    (Reading.labelled readers) fields
  let message := Reading.withDefault "message" "" readers.text fields
  let total := Reading.required "total_rows" (readers.intFrom 0) fields
  match passed.value?, rows.value?, values.value?, message.value?, total.value? with
  | some passed, some rows, some values, some message, some total =>
    return make passed rows values message total
  | _, _, _, _, _ =>
    return .error
      (passed.issues ++ rows.issues ++ values.issues ++ message.issues ++ total.issues)

/-- The outcome of a check that failed on these rows, given as any values. -/
def ofRawFailures (rows values : List Value) (total : Value)
    (readers : Field.Readers := .standard) : StateM World (Except (List Issue) Outcome) :=
  ofFields
    [("passed", .bool rows.isEmpty), ("failing_rows", .list rows), ("failing_values", .list values),
      ("message", .text (messageFor rows.length)), ("total_rows", total)]
    readers

end TableAudit.Outcome
