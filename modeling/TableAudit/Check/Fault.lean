import TableAudit.Check.Scope
import TableAudit.Expr.Printer
import TableAudit.Field.Issue
import TableAudit.Grammar.Fault
import TableAudit.Value.Raised

namespace TableAudit

def LookupFailure.message : LookupFailure → String
  | undefined id => "name " ++ Text.Quoted.quote id ++ " is not defined"
  | noMember message => message

/-- Why a declaration is no check. -/
inductive Reason
  | notADeclaration
  | wrongArguments
  | nameNotLiteral
  | notACall
  | anonymousFunction
  | columnAsPredicate
  | unnamedPredicate
  | argumentsNotPositional
  | malformedColumn
  | argumentWithoutColumn (argument : String)
  | argumentWithoutText (obstacle : Expr.Obstacle)
  | noColumn
  | unresolved (path : String) (failure : LookupFailure)
  | notCallable (path : String)
  | duplicateName (name : String)
  | badSyntax (reason : Grammar.FaultReason)
  | notARecord
  | nameNotText
  | recordNotCallable
  | recordAnonymous
  | badColumns
  | setNameNotText
  | notDeclarations
  | noSource
  | noDefinition
  | stated (text : String)

def Reason.message : Reason → String
  | notADeclaration => "expected a check(name, predicate(...)) declaration"
  | wrongArguments =>
    "check() takes exactly two positional arguments: a name and a predicate call"
  | nameNotLiteral => "check name must be a string literal"
  | notACall => "check must be a predicate call such as is_valid(col('x'))"
  | anonymousFunction => "check predicate must be a named function, not a lambda"
  | columnAsPredicate => "check predicate must be a named function, not a column reference"
  | unnamedPredicate => "check predicate must be a named function"
  | argumentsNotPositional => "predicate arguments must be positional column expressions"
  | malformedColumn => "column reference must be col() with a single string literal"
  | argumentWithoutColumn argument =>
    "predicate argument " ++ Text.Quoted.quote argument ++ " does not reference a column"
  | argumentWithoutText obstacle => obstacle.message
  | noColumn => "check must reference at least one column"
  | unresolved path failure =>
    "cannot resolve predicate " ++ Text.Quoted.quote path ++ ": " ++ failure.message
  | notCallable path => "predicate " ++ Text.Quoted.quote path ++ " is not callable"
  | duplicateName name => "duplicate check name " ++ Text.Quoted.quote name
  | badSyntax reason => "invalid syntax: " ++ reason.message
  | notARecord => "expected a (name, predicate, columns) record"
  | nameNotText => "check name must be a string"
  | recordNotCallable => "check predicate must be callable"
  | recordAnonymous => "check predicate must be a named function, not a lambda"
  | badColumns => "check columns must be a sequence of column names"
  | setNameNotText => "check set name must be a string"
  | notDeclarations => "expected source text, a function, or declaration records"
  | noSource => "source is not available"
  | noDefinition => "expected a function definition"
  | stated text => text

/-- A declaration that could not be compiled, with the line it stands on if it has one. -/
structure CompileError where
  declaration : String
  reason : Reason
  line : Option Int

def CompileError.message (error : CompileError) : String :=
  let location :=
    match error.line with
    | some line => " (line " ++ toString line ++ ")"
    | none => ""
  "Invalid check declaration" ++ location ++ ": " ++ error.reason.message ++ ": " ++
    error.declaration

/-- Why an operation has no answer. -/
inductive Fault
  | compile (error : CompileError)
  | notFound (check container : Value)
  | invalid (issues : List Issue)
  | raised (error : Raised)

namespace Fault

/-- An expression cannot be printed. -/
def unprintable (obstacle : Expr.Obstacle) : Fault :=
  raised (.of .valueError obstacle.message)

/-- The fault that a statement which declares no check makes: an error of compilation, unless it
    cannot be stated. -/
def ofCompile (error : CompileError) : Fault :=
  match error.reason with
  | .argumentWithoutText obstacle => unprintable obstacle
  | _ => compile error

def notFoundMessage (check container : Value) : String :=
  "Check " ++ check.literal ++ " not found in " ++ container.literal

/-- The wider classes of error that a fault belongs to. -/
def classes : Fault → List String
  | compile _ => ["CheckmateError", "ValueError"]
  | notFound .. => ["CheckmateError", "LookupError"]
  | invalid _ => ["ValueError"]
  | raised error =>
    match error.kind with
    | .valueError => ["ValueError"]
    | .keyError | .indexError | .lookupError => ["LookupError"]
    | .other name => if name == "CheckmateError" then [name] else []
    | _ => []

def typeError (message : String) : Fault :=
  raised (.of .typeError message)

/-- Whether a fault ends the program rather than report a failure. -/
def escapes : Fault → Bool
  | raised error => error.escapes
  | _ => false

end Fault

end TableAudit
