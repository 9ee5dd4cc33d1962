import TableAudit.Block.Definition
import TableAudit.Module.Names
import TableAudit.Module.Words
import TableAudit.World.Job

namespace TableAudit.Module

/-- The cells of variables, by name. Of two for one name the first counts. -/
abbrev Cells :=
  List (String × Nat)

structure Function where
  /-- The names that lead to the function. -/
  path : String
  params : Params
  defaults : List Value
  keywordDefaults : List (String × Value)
  body : List Stmt
  /-- The lines of the definition. -/
  source : String
  /-- The variables of the functions around it. -/
  outer : Cells

namespace Function

def signature (f : Function) : Signature :=
  { title := f.path, params := f.params, defaults := f.defaults
    keywordDefaults := f.keywordDefaults }

/-- The names of the variables of a function, its parameters among them. -/
def ownNames (f : Function) : List String :=
  (f.params.names ++ Stmt.boundByAll f.body).eraseDups

/-- The names that a function reads and does not bind. -/
def free (f : Function) : List String :=
  ((Stmt.readsOfAll f.body).inFunction f.ownNames).inner.eraseDups

/-- The variables that a function closes over. -/
def captured (f : Function) : Cells :=
  f.free.filterMap fun name => (f.outer.lookup name).map fun cell => (name, cell)

end Function

/-- What stands behind a function value. -/
inductive Routine
  | marker (marker : Marker)
  | declarer (declarer : Declarer)
  | function (function : Function)
  /-- What makes an object of a class. -/
  | construct

/-- A module text while its statements are performed. -/
structure Workspace where
  text : List Char
  scan : Scan
  /-- Whether the lines of definitions can be had. -/
  available : Bool
  globals : Scope
  cells : List (Option Value)
  routines : List Routine
  sets : List CheckSet
  world : World

/-- Work on a module text, which may end in a fault. -/
abbrev Work :=
  ExceptT Fault (StateM Workspace)

/-- The words with their values, which are the first functions of every workspace. -/
def words : List (String × Routine) :=
  [(Marker.check.word, .marker .check), (Marker.column.word, .marker .column),
    (Declarer.word, .declarer ⟨none⟩)]

def wordScope : List (String × Value) :=
  words.zipIdx.map fun (word, number) => (word.1, .callable (.defined number word.1))

namespace Workspace

/-- A workspace before the first statement. -/
def start (text : List Char) (scan : Scan) (available : Bool) (world : World) : Workspace :=
  { text, scan, available, globals := Scope.library ++ wordScope, cells := []
    routines := words.map Prod.snd, sets := [], world }

/-- The line on which a token begins. -/
def startLine (w : Workspace) (token : Nat) : Nat :=
  (w.scan.lexemes[token]?.map fun lexeme => lexeme.start.line).getD 1

/-- The line on which a token ends. -/
def stopLine (w : Workspace) (token : Nat) : Nat :=
  (w.scan.lexemes[token]?.map fun lexeme => lexeme.stop.line).getD 1

/-- The lines from one to another. -/
def linesFrom (w : Workspace) (first last : Nat) : String :=
  let rows := (Text.keepLines w.text).drop (first - 1)
  String.ofList (rows.take (last + 1 - first)).flatten

/-- The lines of what the tokens of an extent define. -/
def definitionLines (w : Workspace) (extent : Extent) : String :=
  w.linesFrom (w.startLine extent.first) (w.stopLine (extent.last - 1))

/-- How a token changes the depth of brackets. -/
def depthChange : Token → Int
  | .op symbol =>
    if ["(", "[", "\x7b"].contains symbol then 1
    else if [")", "]", "\x7d"].contains symbol then -1
    else 0
  | _ => 0

/-- The line that ends what begins with lexemes: the first that ends outside brackets. -/
def lastLine : Int → Nat → List Lexeme → Nat
  | _, line, [] => line
  | depth, line, lexeme :: rest =>
    if Grammar.isNewline lexeme.token || (lexeme.start.line != line && depth ≤ 0) then line
    else lastLine (depth + depthChange lexeme.token) lexeme.stop.line rest

/-- Whether a definition can begin with a token. -/
def beginsDefinition (token : Token) : Bool :=
  token.isOp "@" || ["async", "class", "def"].any fun word => token.isKeyword word

/-- The lines of a function without a name, in a statement that covers an extent: they begin
    with the line of the function, and end where a statement would that begins there. -/
def anonymousLines (w : Workspace) (extent : Extent) : String :=
  let inside := (w.scan.lexemes.drop extent.first).take (extent.last - extent.first)
  let line :=
    ((inside.find? fun lexeme => lexeme.token.isKeyword "lambda").map fun lexeme =>
      lexeme.start.line).getD 1
  let onLine := fun (lexeme : Lexeme) =>
    lexeme.start.line == line && !lexeme.token.isLayout
  if (inside.find? onLine).any fun lexeme => beginsDefinition lexeme.token then
    w.linesFrom line (w.stopLine (extent.last - 1))
  else
    let onward := w.scan.lexemes.dropWhile fun lexeme => !onLine lexeme
    w.linesFrom line (lastLine 0 line onward)

/-- The variables that a function closes over, with the values they have. -/
def capturedBy (w : Workspace) (f : Function) : List (String × Option Value) :=
  f.captured.map fun entry => (entry.1, (w.cells[entry.2]?).join)

/-- What is known of a function value that is to be compiled. -/
def definition? (w : Workspace) (value : Value) : Option Block.Definition :=
  let given := fun (title source : String) (globals : Scope)
      (captured : List (String × Option Value)) =>
    some ⟨title, if w.available then some source else none, globals, captured⟩
  match value with
  | .callable (.defined number _) =>
    match w.routines[number]? with
    | some (.function f) => given f.path f.source w.globals (w.capturedBy f)
    | some (.marker marker) => given marker.word marker.definition { language := w.globals.language } []
    | some (.declarer declarer) => given declarer.title declarer.definition { language := w.globals.language } []
    | some .construct => none
    | none => none
  | _ => none

end Workspace

namespace Work

variable {α : Type}

def ofJob (job : Job α) : Work α := fun w =>
  let (result, world) := job w.world
  (result, { w with world })

def ofAct (act : Act α) : Work α :=
  ofJob (.ofAct act)

def raise (error : Raised) : Work α :=
  throw (.raised error)

def ofResult (result : Except Raised α) : Work α :=
  match result with
  | .ok value => return value
  | .error error => raise error

/-- A value for one more function. -/
def addRoutine (path : String) (routine : Routine) : Work Callable := do
  let number := (← get).routines.length
  modify fun w => { w with routines := w.routines ++ [routine] }
  return .defined number path

/-- A value for one more check set. -/
def addCheckSet (set : CheckSet) : Work Value := do
  let number := (← get).sets.length
  modify fun w => { w with sets := w.sets ++ [set] }
  return .checkSet number set.name

/-- New variables without values. -/
def addCells (names : List String) : Work Cells := do
  let first := (← get).cells.length
  modify fun w => { w with cells := w.cells ++ names.map fun _ => none }
  return names.zipIdx first

def setCell (cell : Nat) (value : Value) : Work Unit :=
  modify fun w => { w with cells := w.cells.set cell (some value) }

def cell? (cell : Nat) : Work (Option Value) := do
  return ((← get).cells[cell]?).join

end Work

end TableAudit.Module
