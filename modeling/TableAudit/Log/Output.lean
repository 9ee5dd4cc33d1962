import TableAudit.Log.Record
import TableAudit.Settings.Basic

namespace TableAudit

/-- How the records of the package are written. -/
structure Output where
  structured : Bool
  level : LevelName
deriving DecidableEq, Repr

namespace Output

def ofSettings (settings : Settings) : Output :=
  ⟨settings.structuredLogging, settings.logLevel⟩

/-- The least level that is written where nothing else is said. -/
def usualThreshold : Int :=
  Level.warning.number

/-- The least level that is written. A level of zero leaves the choice to the usual one. -/
def threshold (output : Output) : Int :=
  let number := output.level.level.number
  if number = 0 then usualThreshold else number

/-- Whether a logger stands below that of the package, or is it. -/
def covers (logger : String) : Bool :=
  logger == packageLogger || (packageLogger ++ ".").toList.isPrefixOf logger.toList

/-- The text of a record in the form of an output. -/
def textOf (output : Output) (record : Record) : Except Raised String :=
  if output.structured then record.document.map Json.render else record.lineText

/-- What is written for a record: a text with a line feed, or nothing. A record that has no text is
    passed over. -/
def write (output : Option Output) (record : Record) : String :=
  let lineOf := fun (text : Except Raised String) =>
    match text with
    | .ok text => text ++ "\n"
    | .error _ => ""
  match output.filter fun _ => covers record.logger with
  | some output => if output.threshold ≤ record.level then lineOf (output.textOf record) else ""
  | none => if usualThreshold ≤ record.level then lineOf record.bareText else ""

end Output

end TableAudit
