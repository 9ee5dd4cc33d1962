import TableAudit.Block.Basic
import TableAudit.Check.Basic
import TableAudit.Check.Fault
import TableAudit.Expr.Columns
import TableAudit.Expr.Printer

namespace TableAudit

namespace Expr

/-- The names of a path, in reverse: `c`, `b`, `a` for `a.b.c`. -/
def reversedPath? : Expr → Option (List String)
  | name id => some [id]
  | member value attr => value.reversedPath?.map (attr :: ·)
  | _ => none

/-- The names of a path. -/
def path? (e : Expr) : Option (List String) :=
  e.reversedPath?.map List.reverse

def isStarred : Expr → Bool
  | starred _ => true
  | _ => false

/-- The columns of an expression, or the reason why there are none. -/
def columnsOf (e : Expr) : Except Reason (List String) :=
  match e.columns? with
  | some columns => .ok columns
  | none => .error .malformedColumn

end Expr

namespace Block

/-- Every argument of a predicate call must refer to a column. -/
def checkArgument (arg : Expr) : Except Reason Unit := do
  let columns ← arg.columnsOf
  if columns.isEmpty then
    match arg.render with
    | .ok text => throw (.argumentWithoutColumn text)
    | .error obstacle => throw (.argumentWithoutText obstacle)

def pathText (path : List String) : String :=
  joinWith "." path

/-- The predicate that a path leads to. -/
def resolvePredicate (scope : Scope) (path : List String) : Except Reason Callable :=
  match scope.resolve (path.headD "") path.tail with
  | .error failure => .error (.unresolved (pathText path) failure)
  | .ok value =>
    match value.callable? with
    | some target => .ok target
    | none => .error (.notCallable (pathText path))

/-- The check that a call of a predicate makes under a name. -/
def checkOfCall (scope : Scope) (name : String) (call : Expr) : Except Reason Check :=
  match call with
  | .call function args names values => do
    if let .lambda .. := function then throw .anonymousFunction
    if call.isMarker Expr.columnWord then throw .columnAsPredicate
    let some path := function.path? | throw .unnamedPredicate
    if !names.isEmpty || !values.isEmpty || args.any Expr.isStarred then
      throw .argumentsNotPositional
    args.forM checkArgument
    let columns ← call.columnsOf
    if columns.isEmpty then throw .noColumn
    let predicate ← resolvePredicate scope path
    return ⟨name, predicate, columns⟩
  | _ => .error .notACall

/-- The check that an expression declares. -/
def checkOfExpr (scope : Scope) (e : Expr) : Except Reason Check :=
  match e with
  | .call function args names values => do
    if !function.isWord Expr.checkWord then throw .notADeclaration
    match args, names, values with
    | [name, call], [], [] =>
      match name.text? with
      | some name => checkOfCall scope name call
      | none => throw .nameNotLiteral
    | _, _, _ => throw .wrongArguments
  | _ => .error .notADeclaration

def checkOfForm (scope : Scope) (form : Form) : Except Reason Check :=
  match form with
  | .expression e => checkOfExpr scope e
  | _ => .error .notADeclaration

def errorAt (s : Statement) (reason : Reason) : CompileError :=
  ⟨s.text, reason, some s.line⟩

/-- An error that belongs to no line. -/
def errorFor (declaration : String) (reason : Reason) : CompileError :=
  ⟨declaration, reason, none⟩

/-- Compiles the statements of a block, given the checks before them. -/
def compileFrom (scope : Scope) : List Check → List Statement → Except CompileError (List Check)
  | done, [] => .ok done
  | done, s :: rest =>
    if s.isIgnorable then compileFrom scope done rest
    else
      match checkOfForm scope s.form with
      | .error reason => .error (errorAt s reason)
      | .ok check =>
        if done.any fun before => before.name == check.name then
          .error (errorAt s (.duplicateName check.name))
        else compileFrom scope (done ++ [check]) rest

/-- Compiles a block of statements. -/
def compile (scope : Scope) (name : String) (body : List Statement) :
    Except CompileError CheckSet :=
  (compileFrom scope [] body).map fun checks => ⟨name, checks⟩

/-- A syntax fault as an error of compilation. -/
def syntaxError (fault : Grammar.SyntaxFault) : CompileError :=
  ⟨fault.text, .badSyntax fault.reason, some fault.line⟩

/-- No text that is read may hold the null character. -/
def nullCharacter : Fault :=
  .raised (.of .valueError "source code string cannot contain null bytes")

/-- No text that is read may hold a surrogate. -/
def surrogate : Fault :=
  .raised (.of (.other "UnicodeEncodeError") "surrogates not allowed")

/-- The fault of a text that is refused before any of it is read. -/
def unreadable? (source : List Char) : Option Fault :=
  if source.any Text.isSurrogate then some surrogate
  else if source.contains '\x00' then some nullCharacter
  else none

/-- The statements of a text without its margin. -/
def read (named : String → Option Char) (source : List Char) : Except Fault (List Statement) :=
  match unreadable? source with
  | some fault => .error fault
  | none =>
    match Statement.ofText named source with
    | .ok body => .ok body
    | .error fault => .error (.compile (syntaxError fault))

/-- Compiles a text of declarations. -/
def compileText (scope : Scope) (name : String) (text : String) : Except Fault CheckSet := do
  let body ← read scope.language.named? (Text.Margin.remove text.toList)
  match compile scope name body with
  | .ok set => return set
  | .error error => throw (.ofCompile error)

/-- The columns of an expression. An error shows the source, or the expression as it is printed if
    there is none, and gives the line. -/
def columnsIn (e : Expr) (source : String) (line : Option Int) : Except Fault (List String) :=
  match if source.isEmpty then e.render else .ok source with
  | .error obstacle => .error (.unprintable obstacle)
  | .ok shown =>
    match e.columnsOf with
    | .ok columns => .ok columns
    | .error reason => .error (.compile ⟨shown, reason, line⟩)

/-- The columns of an expression that is given as text. The line is that of the expression unless
    another is given. -/
def extractColumns (text source : String) (line : Option Int) (language : Language := .standard) :
    Except Fault (List String) :=
  match unreadable? text.toList with
  | some fault => .error fault
  | none =>
    match Grammar.readExpression language.named? text.toList with
    | .error fault => .error (.compile (syntaxError fault))
    | .ok (e, scan) =>
      columnsIn e source (some (line.getD (Grammar.firstLine scan e : Nat)))

end Block

end TableAudit
