import TableAudit.Check.Fault
import TableAudit.Outcome.Order
import TableAudit.Report.Console
import TableAudit.Summary.Queries

namespace TableAudit

inductive Subject
  | summary (summary : Summary)
  | checkSet (set : CheckSet)
  | outcome (outcome : Outcome)
  | value (value : Value)

namespace Subject

def typeName : Subject → String
  | summary _ => "CheckSummary"
  | checkSet _ => "CheckSet"
  | outcome _ => "CheckResult"
  | value v => v.typeName

/-- The fault of a subject that lacks a member. -/
def lacks (subject : Subject) (member : String) : Fault :=
  let failure :=
    match subject with
    | value v => v.lacks member
    | _ => "'" ++ subject.typeName ++ "' object has no attribute '" ++ member ++ "'"
  .raised (.of .attributeError failure)

/-- The summary that a subject is. -/
def asSummary (subject : Subject) (member : String) : Except Fault Summary :=
  match subject with
  | summary s => .ok s
  | _ => .error (subject.lacks member)

/-- The check set that a subject is. -/
def asCheckSet (subject : Subject) (member : String) : Except Fault CheckSet :=
  match subject with
  | checkSet set => .ok set
  | _ => .error (subject.lacks member)

def notRendered (subject : Subject) : Fault :=
  .typeError ("Cannot render object of type " ++ subject.typeName)

/-- The report of a subject. -/
def report (subject : Subject) (preview : Int) : Except Fault String :=
  match subject with
  | summary s => .ok (s.report preview)
  | checkSet set => .ok set.describe
  | _ => .error subject.notRendered

/-- The lines of the report of a summary. -/
def summaryLines (subject : Subject) (preview : Int) : Except Fault (List Report.Line) :=
  (subject.asSummary "checkset_name").map (Report.summaryLines preview)

/-- The lines that describe a check set. -/
def checkSetLines (subject : Subject) : Except Fault (List Report.Line) :=
  (subject.asCheckSet "name").map Report.checkSetLines

end Subject

/-- The parts of an outcome, each behind its name. -/
def Outcome.display (outcome : Outcome) : String :=
  let rowText := fun (values : RowValues) =>
    (Value.dict (values.entries.map fun entry => (.text entry.1, entry.2))).literal
  "passed=" ++ (Value.bool outcome.passed).literal ++ " failing_rows=" ++
    (Value.list (outcome.rows.map .int)).literal ++ " failing_values=[" ++
    joinWith ", " (outcome.values.map rowText) ++ "] message=" ++
    Text.Quoted.quote outcome.message ++ " total_rows=" ++ toString outcome.total

/-- The text that a subject is shown as. -/
def Subject.display : Subject → String
  | summary s => s.report Report.defaultPreview
  | checkSet set => set.describe
  | outcome o => o.display
  | value v => v.display

end TableAudit
