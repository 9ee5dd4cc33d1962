import TableAudit.Block.Compile

namespace TableAudit.Block

/-- What is known of a function that is to be compiled. -/
structure Definition where
  /-- The name by which errors refer to the function. -/
  title : String
  /-- The lines of the definition, if they can be had. -/
  source : Option String
  globals : Scope
  /-- The variables that the function closes over; some may have no value yet. -/
  captured : List (String × Option Value)

def emptyCell : Fault :=
  .raised (.of .valueError "Cell is empty")

/-- Variables with their values, all of which must be there. -/
def filled : List (String × Option Value) → Except Fault (List (String × Value))
  | [] => .ok []
  | (_, none) :: _ => .error emptyCell
  | (name, some value) :: rest => (filled rest).map ((name, value) :: ·)

/-- The body of the first function among statements. -/
def firstBody? : List Stmt → Option (List Stmt)
  | [] => none
  | .function _ _ _ body :: _ => some body
  | _ :: rest => firstBody? rest

namespace Definition

def scope (d : Definition) : Except Fault Scope :=
  (filled d.captured).map fun captured => d.globals ++ captured

/-- The statements in the body of the function, found in the text of its definition. -/
def body (d : Definition) : Except Fault (List Statement) :=
  match d.source with
  | none => .error (.compile (errorFor d.title .noSource))
  | some source =>
    let text := Text.Margin.remove source.toList
    match unreadable? text with
    | some fault => .error fault
    | none =>
      match Grammar.readDefinition d.globals.language.named? text with
      | .error fault => .error (.compile (syntaxError fault))
      | .ok (statements, scan) =>
        match firstBody? statements with
        | some body => .ok (body.map (Stmt.resolve scan text))
        | none => .error (.compile (errorFor d.title .noDefinition))

/-- Compiles the body of a function. -/
def compile (d : Definition) (name : String) : Except Fault CheckSet := do
  let body ← d.body
  let scope ← d.scope
  match Block.compile scope name body with
  | .ok set => return set
  | .error error => throw (.ofCompile error)

end Definition

end TableAudit.Block
