import TableAudit.Field.Reader
import TableAudit.Settings.Basic
import TableAudit.Settings.VariableFile
import TableAudit.World.Job

namespace TableAudit.Settings

/-- The places that settings come from. -/
structure Origin where
  given : Field.Fields := []
  environment : Labelled String := .empty
  /-- The text of the file of variables. -/
  file : String := ""

/-- The small letter of a letter of a name. One letter beyond ASCII has its small letter within. -/
def small (c : Char) : Char :=
  if c == '\u212a' then 'k' else c.toLower

def smallLetters (name : String) : String :=
  String.ofList (name.toList.map small)

/-- The variable of a setting. -/
def variableName (field : String) : String :=
  "checkmate_" ++ field

/-- The last variable that matches a name. -/
def findVariable? {α : Type} (known : Labelled α) (name : String) : Option α :=
  (known.entries.reverse.find? fun entry => smallLetters entry.1 == name).map Prod.snd

namespace Origin

/-- What an origin says about a setting. -/
def value? (origin : Origin) (field : String) : Option Value :=
  let name := variableName field
  let inFile := VariableFile.variablesOf origin.environment origin.file
  (origin.given.get? field).or
    (((findVariable? origin.environment name).or (findVariable? inFile name).join).map .text)

/-- The settings that are said, by name. -/
def fields (origin : Origin) : Field.Fields :=
  ["concurrent", "max_workers", "failure_preview", "structured_logging", "log_level"].filterMap
    fun field => (origin.value? field).map fun value => (field, value)

end Origin

/-- A number of at least one. -/
def count (readers : Field.Readers) (value : Value) : Except IssueKind Count := do
  let n ← readers.int value
  if h : 1 ≤ n then return ⟨n, h⟩ else throw (.atLeast "1")

def optionalCount (readers : Field.Readers) (value : Value) : Except IssueKind (Option Count) :=
  match value with
  | .null => .ok none
  | _ => (count readers value).map some

/-- The level that the display of a value names. -/
def levelName (value : Value) : Except IssueKind LevelName :=
  match LevelName.ofText? value.display with
  | some name => .ok name
  | none => .error (.stated ("Unknown log level: " ++ value.literal))

open TableAudit.Field in
/-- The settings with these fields. -/
def ofFields (fields : Fields) (readers : Readers := .standard) : Except (List Issue) Settings :=
  let default : Settings := {}
  let concurrent := Reading.withDefault "concurrent" default.concurrent readers.bool fields
  let workers :=
    Reading.withDefault "max_workers" default.maxWorkers (optionalCount readers) fields
  let preview :=
    Reading.withDefault "failure_preview" default.failurePreview (count readers) fields
  let structured :=
    Reading.withDefault "structured_logging" default.structuredLogging readers.bool fields
  let level := Reading.withDefault "log_level" default.logLevel levelName fields
  match concurrent.value?, workers.value?, preview.value?, structured.value?, level.value? with
  | some concurrent, some workers, some preview, some structured, some level =>
    .ok ⟨concurrent, workers, preview, structured, level⟩
  | _, _, _, _, _ =>
    .error
      (concurrent.issues ++ workers.issues ++ preview.issues ++ structured.issues ++ level.issues)

def loadedEntry (settings : Settings) : Entry :=
  { level := .debug
    reporter := .settings
    message :=
      "Loaded settings: concurrent=" ++ (Value.bool settings.concurrent).display ++
        " max_workers=" ++ settings.workersValue.display }

/-- Loads settings, and reports it. -/
def load (origin : Origin) : Job Settings := fun world =>
  match ofFields origin.fields with
  | .ok settings => (.ok settings, world.report (loadedEntry settings))
  | .error issues => (.error (.invalid issues), world)

end TableAudit.Settings
