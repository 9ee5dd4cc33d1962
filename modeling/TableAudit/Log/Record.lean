import TableAudit.Calendar.Moment
import TableAudit.Log.Entry
import TableAudit.Template.Fill
import TableAudit.Value.Document

namespace TableAudit

/-- The errors that a record reports: none, one that is not known, or a chain of errors, each with
    the error that caused it behind it. -/
inductive Failure
  | none
  | unknown
  | chain (error : Raised) (causes : List Raised)

structure Record where
  template : Value
  args : List Value := []
  level : Int
  logger : String
  /-- The time in seconds. -/
  created : Float
  thread : Option String := none
  checkSet : Value := .null
  check : Value := .null
  failure : Failure := .none

namespace Record

/-- An entry as a record of a time. -/
def ofEntry (created : Float) (entry : Entry) : Record :=
  let value := fun (text : Option String) => text.elim Value.null Value.text
  { template := .text entry.message
    level := entry.level.number
    logger := entry.reporter.logger
    created := created
    thread := entry.thread
    checkSet := value entry.checkSet
    check := value entry.check }

/-- The values that fill the message: a dictionary by itself is asked by name. -/
def values (args : List Value) : Template.Values :=
  match args with
  | [.dict entries] => if entries.isEmpty then .ofList args else .ofDict entries
  | _ => .ofList args

/-- The message; without values it is as it stands. -/
def message (record : Record) : Except Raised String :=
  let text := record.template.display
  if record.args.isEmpty then .ok text else Template.fill .text text (values record.args)

end Record

/-- One error of a chain. -/
def Raised.line (error : Raised) : String :=
  if error.message.isEmpty then error.kind.name else error.kind.name ++ ": " ++ error.message

namespace Failure

def link : String :=
  "\nThe above exception was the direct cause of the following exception:\n\n"

/-- The text of a chain of errors, the deepest cause first. -/
def chainText (error : Raised) (causes : List Raised) : String :=
  joinWith link ((causes.reverse ++ [error]).map fun error => error.line ++ "\n")

/-- What a document says about the failure. -/
def documentText? : Failure → Option String
  | chain error causes => some (chainText error causes)
  | _ => Option.none

/-- What a line of text is followed by, without the last line feed. -/
def plainText? : Failure → Option String
  | none => Option.none
  | unknown => some "NoneType: None"
  | chain error causes =>
    some (joinWith link ((causes.reverse.map fun error => error.line ++ "\n") ++ [error.line]))

end Failure

namespace Record

/-- The thread, if it is one of the package. -/
def worker? (record : Record) : Option String :=
  record.thread.filter fun name => packageLogger.toList.isPrefixOf name.toList

/-- A member that is there only for a value. -/
def optionalMember (name : String) (value : Value) : Except Raised (List (String × Json)) :=
  match value with
  | .null => .ok []
  | _ => value.document.map fun document => [(name, document)]

def textMember (name : String) (text : Option String) : List (String × Json) :=
  (text.map fun text => (name, Json.text text)).toList

/-- The document of a record. -/
def document (record : Record) : Except Raised Json := do
  let moment ← Moment.ofFloat record.created
  let message ← record.message
  let checkSet ← optionalMember "checkset" record.checkSet
  let check ← optionalMember "check" record.check
  return .object
    ([("timestamp", .text moment.isoText), ("level", .text (Level.nameOf record.level)),
        ("logger", .text record.logger), ("message", .text message)] ++
      checkSet ++ check ++ textMember "thread" record.worker? ++
      textMember "exc_info" record.failure.documentText?)

/-- The milliseconds of a time, as many as fit. -/
def millis (seconds : Float) : Except Raised Int := do
  let whole ← (Number.float seconds).truncate
  (Number.float ((seconds - Decimal.floatOfInt whole) * 1000.0)).truncate

/-- The whole seconds of a time, the fraction dropped downwards. -/
def floorSeconds (seconds : Float) : Except Raised Int := do
  let whole ← (Number.float seconds).truncate
  return if seconds < Decimal.floatOfInt whole then whole - 1 else whole

def millisText (millis : Int) : String :=
  if millis < 0 then "-" ++ Decimal.padded 2 millis.natAbs else Decimal.padded 3 millis.natAbs

/-- The time as lines of text show it. -/
def timeText (seconds : Float) : Except Raised String := do
  let moment := Moment.ofSeconds (← floorSeconds seconds) 0
  return moment.dateText 1 ++ " " ++ moment.timeText ++ "," ++ millisText (← millis seconds)

/-- A text followed by what there is about a failure, on a line of its own. -/
def withFailure (record : Record) (text : String) : String :=
  match record.failure.plainText? with
  | some failure => if text.endsWith "\n" then text ++ failure else text ++ "\n" ++ failure
  | none => text

/-- The record as a line of text. -/
def lineText (record : Record) : Except Raised String := do
  let message ← record.message
  let time ← timeText record.created
  return record.withFailure
    (time ++ " " ++ Level.nameOf record.level ++ " " ++ record.logger ++ ": " ++ message)

/-- The record as its message alone. -/
def bareText (record : Record) : Except Raised String :=
  record.message.map record.withFailure

end Record

end TableAudit
