import TableAudit.Call.Arity
import TableAudit.Subject.Basic
import TableAudit.Value.Hashing

namespace TableAudit

inductive Question
  | failedChecks | passedChecks | totalFailures | executionTime
  | passRate | failingRows | checkNames | checkColumns
deriving DecidableEq, Repr

/-- The float of a rate. -/
def Rate.toFloat : Rate → Float
  | tenths count => Decimal.floatOfQuotient false count 10
  | unbounded => 1.0 / 0.0

namespace Question

def word : Question → String
  | failedChecks => "failed_checks"
  | passedChecks => "passed_checks"
  | totalFailures => "total_failures"
  | executionTime => "execution_time"
  | passRate => "pass_rate"
  | failingRows => "failing_rows"
  | checkNames => "check_names"
  | checkColumns => "check_columns"

def all : List Question :=
  [failedChecks, passedChecks, totalFailures, executionTime, passRate, failingRows, checkNames,
    checkColumns]

def ofWord? (word : String) : Option Question :=
  all.find? fun question => question.word == word

def texts (items : List String) : Value :=
  .list (items.map .text)

def ints (items : List Int) : Value :=
  .list (items.map .int)

/-- The name of a check, or the fault of a name that no check can have. -/
def checkName (container : String) (name : Value) : Except Fault String :=
  match name with
  | .text name => .ok name
  | _ =>
    match name.asKey with
    | .ok name => .error (.notFound name (.text container))
    | .error error => .error (.raised error)

/-- The answer about a summary, or about one of its checks. -/
def ofSummary {α : Type} (subject : Subject) (name : Value)
    (whole : Summary → Except Fault α) (part : Summary → String → Except Fault α) :
    Except Fault α := do
  let summary ← subject.asSummary "check_results"
  match name with
  | .null => whole summary
  | _ => part summary (← checkName summary.name name)

/-- The rows that failed. An outcome has no checks to name. -/
def failingRowsOf (subject : Subject) (name : Value) : Except Fault (List Int) :=
  match subject, name with
  | .outcome outcome, .null => .ok outcome.rows
  | .outcome _, _ => .error (.typeError "failing_rows(result) does not accept a check name")
  | _, _ =>
    ofSummary subject name (fun summary => .ok summary.failingRows) Summary.failingRowsOf

def columnsOf (subject : Subject) (name : Value) : Except Fault (List String) := do
  let set ← subject.asCheckSet "checks"
  match name with
  | .text name => set.columnsOf name
  | _ => throw (.notFound name (.text set.name))

/-- Whether a question takes the name of a check: it must, may or must not. -/
def nameCount : Question → Nat × Nat
  | passRate | failingRows => (0, 1)
  | checkColumns => (1, 1)
  | _ => (0, 0)

/-- The fault of a question with a name it does not take, or without one it needs. -/
def checkCount (question : Question) (given : Nat) : Except Fault Unit :=
  let (least, most) := question.nameCount
  if most < given then
    .error (.raised (Arity.tooMany question.word (1 + least) (1 + most) (1 + given) 0))
  else if given < least then .error (.raised (Arity.missing question.word "positional" ["name"]))
  else .ok ()

/-- The answer to a question. -/
def answer (question : Question) (subject : Subject) (name? : Option Value) :
    Except Fault Value := do
  question.checkCount name?.toList.length
  let name := name?.getD .null
  match question with
  | failedChecks => return texts (← subject.asSummary "check_results").failedChecks
  | passedChecks => return texts (← subject.asSummary "check_results").passedChecks
  | totalFailures => return .int (← subject.asSummary "check_results").totalFailures
  | executionTime => return .float (← subject.asSummary "time_elapsed").elapsed
  | passRate =>
    let rate ← ofSummary subject name Summary.passRate Summary.passRateOf
    return .float rate.toFloat
  | failingRows => return ints (← failingRowsOf subject name)
  | checkNames => return texts (← subject.asCheckSet "checks").names
  | checkColumns => return texts (← columnsOf subject name)

end Question

/-- The names of the checks of a subject in the order of reports. -/
def Subject.orderedNames (subject : Subject) : Except Fault (List String) := do
  return (← subject.asSummary "check_results").ordered.map Prod.fst

end TableAudit
