import TableAudit.Check.Fields
import TableAudit.Module.Perform

namespace TableAudit.Module

/-- What is taken from a module text, and how it is compiled. -/
structure Target where
  /-- The name of the variable. -/
  holder : String
  /-- The values it is called with, if it is. -/
  args : Option (List Value)
  /-- Whether it must be a function. -/
  direct : Bool

/-- The name by which an error refers to a value that should be a function. -/
def titleOf : Value → String
  | .callable (.builtin b) => b.id
  | .callable (.defined _ path) => path
  | .definedClass _ path _ => path
  | value => value.literal

/-- Compiles a function under a name, which is looked at last. -/
def declareFunction (name function : Value) : Work CheckSet := do
  match (← get).definition? function with
  | none => throw (.compile (Block.errorFor (titleOf function) .noSource))
  | some d =>
    match name with
    | .text title => Work.ofJob (Block.reported (d.compile title))
    | _ =>
      let set ← Work.ofJob (.ofExcept (d.compile ""))
      match CheckSet.ofFields [("name", name)] set.checks with
      | .ok set => return set
      | .error issues => throw (.invalid issues)

namespace Target

def missing (target : Target) : Raised :=
  .of .keyError target.holder

/-- The value of a variable that a module text leaves behind. -/
def value (target : Target) (fuel : Nat) : Work Value := do
  match (← get).globals.find? target.holder with
  | none => Work.raise target.missing
  | some value =>
    match target.args with
    | some args => apply fuel value args []
    | none => return value

/-- The check set of a target under a name. -/
def checkSet (target : Target) (fuel : Nat) (name : Value) (body : List Stmt) : Work CheckSet := do
  let _ ← perform fuel .module body
  let value ← target.value fuel
  match value with
  | .checkSet number title => return ((← get).sets[number]?).getD ⟨title, []⟩
  | _ => if target.direct then declareFunction name value else declare Scope.library name value

end Target

/-- A text that is no module. -/
def unreadable (fault : Grammar.SyntaxFault) : Raised :=
  .of (.other "SyntaxError") fault.reason.message

/-- How deep calls can go in a text: every part of it once, and a thousand times more. -/
def fuelFor (text : List Char) : Nat :=
  2 * text.length + 1000

/-- Performs a module text and compiles a target of it under a name. The lines of definitions may
    be out of reach. -/
def compile (text : String) (available : Bool) (target : Target) (name : Value) : Job CheckSet :=
  fun world =>
    match Grammar.readBlock Language.standard.named? text.toList with
    | .error fault => (.error (.raised (unreadable fault)), world)
    | .ok (body, scan) =>
      let start := Workspace.start text.toList scan available world
      let (result, w) := target.checkSet (fuelFor text.toList) name body start
      (result, w.world)

end TableAudit.Module
