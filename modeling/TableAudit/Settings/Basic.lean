import TableAudit.Log.LevelName
import TableAudit.Value.Basic

namespace TableAudit

/-- A number of at least one. -/
abbrev Count :=
  { n : Int // 1 ≤ n }

structure Settings where
  concurrent : Bool := false
  /-- The most workers; none for as many as there are processors. -/
  maxWorkers : Option Count := none
  /-- How many failing rows a report lists at each end. -/
  failurePreview : Count := ⟨5, by decide⟩
  /-- Whether each log entry is written as a document. -/
  structuredLogging : Bool := false
  logLevel : LevelName := .warning

namespace Settings

def workersValue (settings : Settings) : Value :=
  match settings.maxWorkers with
  | some count => .int count.val
  | none => .null

/-- The settings by name. -/
def fields (settings : Settings) : List (String × Value) :=
  [("concurrent", .bool settings.concurrent), ("max_workers", settings.workersValue),
    ("failure_preview", .int settings.failurePreview.val),
    ("structured_logging", .bool settings.structuredLogging),
    ("log_level", .text settings.logLevel.text)]

end Settings

end TableAudit
