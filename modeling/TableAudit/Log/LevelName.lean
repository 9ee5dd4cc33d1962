import TableAudit.Log.Entry
import TableAudit.Text.Blank

namespace TableAudit

inductive LevelName
  | critical | fatal | error | warn | warning | info | debug | notset
deriving DecidableEq, Repr

namespace LevelName

def text : LevelName → String
  | critical => "CRITICAL"
  | fatal => "FATAL"
  | error => "ERROR"
  | warn => "WARN"
  | warning => "WARNING"
  | info => "INFO"
  | debug => "DEBUG"
  | notset => "NOTSET"

def level : LevelName → Level
  | critical | fatal => .critical
  | error => .error
  | warn | warning => .warning
  | info => .info
  | debug => .debug
  | notset => .notset

def all : List LevelName :=
  [critical, fatal, error, warn, warning, info, debug, notset]

/-- The capital of a letter of a name. Two letters beyond ASCII have capitals within it. -/
def capital (c : Char) : Char :=
  if c == '\u0131' then 'I' else if c == '\u017f' then 'S' else c.toUpper

/-- The name that a text spells in letters of any case, blanks around it ignored. -/
def ofText? (spelling : String) : Option LevelName :=
  let word := (Text.strip spelling.toList).map capital
  all.find? fun name => name.text.toList == word

end LevelName

end TableAudit
