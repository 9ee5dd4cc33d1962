import TableAudit.Check.Basic
import TableAudit.Field.Reader

namespace TableAudit

open TableAudit.Field

/-- The check with these fields. -/
def Check.ofFields (fields : Fields) (readers : Readers := .standard) :
    StateM World (Except (List Issue) Check) := do
  let name := Reading.required "name" readers.text fields
  let predicate := Reading.required "predicate" readers.callable fields
  let columns ← Reading.sequenceOf readers "columns" none .tupleType
    (fun place value => .ofExcept place (readers.text value)) fields
  match name.value?, predicate.value?, columns.value? with
  | some name, some predicate, some columns => return .ok ⟨name, predicate, columns⟩
  | _, _, _ => return .error (name.issues ++ predicate.issues ++ columns.issues)

/-- The check set with these fields, its checks apart. -/
def CheckSet.ofFields (fields : Fields) (checks : List Check) (readers : Readers := .standard) :
    Except (List Issue) CheckSet :=
  let name := Reading.required "name" readers.text fields
  match name.value? with
  | some name => .ok ⟨name, checks⟩
  | none => .error name.issues

end TableAudit
