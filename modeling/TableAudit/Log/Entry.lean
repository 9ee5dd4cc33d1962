namespace TableAudit

/-- The levels with a name; a greater number is more severe. -/
inductive Level
  | notset | debug | info | warning | error | critical
deriving DecidableEq, Repr

namespace Level

def number : Level → Int
  | notset => 0
  | debug => 10
  | info => 20
  | warning => 30
  | error => 40
  | critical => 50

def name : Level → String
  | notset => "NOTSET"
  | debug => "DEBUG"
  | info => "INFO"
  | warning => "WARNING"
  | error => "ERROR"
  | critical => "CRITICAL"

def all : List Level :=
  [notset, debug, info, warning, error, critical]

/-- The name of a level by its number; a number between the levels names itself. -/
def nameOf (number : Int) : String :=
  match all.find? fun level => level.number == number with
  | some level => level.name
  | none => "Level " ++ toString number

end Level

/-- The parts of the library that report. -/
inductive Reporter
  | compiler
  | engine
  | settings
deriving DecidableEq, Repr

/-- The name of the logger that all reporters stand below. -/
def packageLogger : String :=
  "checkmate"

def Reporter.logger : Reporter → String
  | compiler => packageLogger ++ ".checks.compiler"
  | engine => packageLogger ++ ".checks.engine"
  | settings => packageLogger ++ ".config"

/-- One report: its level and text, the check set or check that it is about, and the worker that
    made it, if a worker did. -/
structure Entry where
  level : Level
  reporter : Reporter
  message : String
  checkSet : Option String := none
  check : Option String := none
  worker : Option Nat := none
deriving DecidableEq, Repr

namespace Entry

/-- The name of a worker of a concurrent run. -/
def workerName (number : Nat) : String :=
  packageLogger ++ "_" ++ toString number

def thread (entry : Entry) : Option String :=
  entry.worker.map workerName

/-- The entry as made by a worker. -/
def onWorker (number : Nat) (entry : Entry) : Entry :=
  { entry with worker := some number }

end Entry

end TableAudit
