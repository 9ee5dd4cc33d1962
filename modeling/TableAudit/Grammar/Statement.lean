import TableAudit.Grammar.Pattern

namespace TableAudit.Grammar

/-- The tokens from a position up to the last one with a text of its own. -/
def extentFrom (first : Nat) : Reader Extent := do
  return ⟨first, ← lastText⟩

def otherFrom (first : Nat) : Reader Stmt := do
  return .other (← extentFrom first)

def augmentedSymbols : List String :=
  ["+=", "-=", "*=", "@=", "/=", "%=", "&=", "|=", "^=", "<<=", ">>=", "**=", "//="]

/-- A chain of assignments: all but the last expression are targets. -/
def assignment (g : Rules) (first : Nat) (target : Expr) : Reader Stmt := do
  let step := fun (state : List Expr × Expr) => do
    if ← nextIsOp "=" then
      if !isTarget state.2 then unexpected
      let _ ← take
      return ((state.2 :: state.1, ← assignedValue g), true)
    else return (state, false)
  let (reversed, value) ← repeatStep step ([], target)
  return .assign (← extentFrom first) reversed.reverse value

/-- A statement that begins with an expression. -/
def expressionStatement (g : Rules) : Reader Stmt := do
  let first ← position
  let value ← assignedValue g
  match ← peek with
  | .op "=" => assignment g first value
  | .op ":" =>
    if !isSingleTarget value then unexpected
    let _ ← take
    let _ ← g.expression
    if ← takeOp "=" then
      let _ ← assignedValue g
    otherFrom first
  | .op symbol =>
    if augmentedSymbols.contains symbol then
      if !isSingleTarget value then unexpected
      let _ ← take
      let _ ← assignedValue g
      otherFrom first
    else return .expr (← extentFrom first) value
  | _ => return .expr (← extentFrom first) value

/-- Names with dots between them. -/
def dottedName : Reader Unit := do
  let _ ← patternPath

/-- Another name for what is imported. -/
def importedAs : Reader Unit := do
  if ← takeKeyword "as" then
    let _ ← expectName

def importNames : Reader Unit := do
  let item : Reader Unit := do
    dottedName
    importedAs
  let _ ← commaSeparated item fun _ => false

def importFrom : Reader Unit := do
  let dots := fun (count : Nat) => do
    if ← takeOp "." then return (count + 1, true)
    else if ← takeOp "..." then return (count + 3, true)
    else return (count, false)
  let count ← repeatStep dots 0
  if count = 0 || !(← nextIsKeyword "import") then dottedName
  expectKeyword "import"
  let item : Reader Unit := do
    let _ ← expectName
    importedAs
  if ← takeOp "*" then return ()
  else if ← takeOp "(" then
    let _ ← commaSeparated item (Token.isOp ")")
    expectOp ")"
  else
    let _ ← commaSeparated item fun _ => false

/-- What can be deleted. -/
def isDeletable : Expr → Bool
  | .name _ | .member .. | .subscript .. => true
  | .tuple items => allDeletable items
  | .list items => allDeletable items
  | _ => false
where
  allDeletable : List Expr → Bool
    | [] => true
    | item :: rest => isDeletable item && allDeletable rest

def deletion (g : Rules) : Reader Unit := do
  let item : Reader Unit := do
    if !isDeletable (← primary g) then unexpected
  let _ ← commaSeparated item endsSequence

/-- A statement within a line. -/
def simpleStatement (g : Rules) : Reader Stmt := do
  let first ← position
  let names : Reader Unit := do
    let _ ← commaSeparated expectName fun _ => false
  let otherBy := fun (body : Reader Unit) => do
    let _ ← take
    body
    otherFrom first
  match ← peek with
  | .keyword "pass" =>
    let _ ← take
    return .pass (← extentFrom first)
  | .keyword "break" => otherBy (return ())
  | .keyword "continue" => otherBy (return ())
  | .keyword "return" =>
    let _ ← take
    let value ← (do
      if beginsExpression (← peek) then return some (← starExpressions g) else return none)
    return .ret (← extentFrom first) value
  | .keyword "raise" => otherBy do
      if beginsExpression (← peek) then
        let _ ← g.expression
        if ← takeKeyword "from" then
          let _ ← g.expression
  | .keyword "global" => otherBy names
  | .keyword "nonlocal" => otherBy names
  | .keyword "del" => otherBy (deletion g)
  | .keyword "assert" => otherBy do
      let _ ← g.expression
      if ← takeOp "," then
        let _ ← g.expression
  | .keyword "import" => otherBy importNames
  | .keyword "from" => otherBy importFrom
  | _ => expressionStatement g

/-- Statements with semicolons between them, up to and with the end of the line. -/
def simpleLine (g : Rules) : Reader (List Stmt) := do
  let step := fun (reversed : List Stmt) => do
    if ← takeOp ";" then
      if isNewline (← peek) then return (reversed, false)
      else return ((← simpleStatement g) :: reversed, true)
    else return (reversed, false)
  let reversed ← repeatStep step [← simpleStatement g]
  expect isNewline
  return reversed.reverse

/-- A colon and the statements after it, on the same line or indented below. -/
def block (g : Rules) : Reader (List Stmt) := do
  expectOp ":"
  if ← takeIf isNewline then
    expect isIndent
    let body ← g.statements
    expect isDedent
    return body
  else simpleLine g

def skipBlock (g : Rules) : Reader Unit := do
  let _ ← block g

def elseBlock (g : Rules) : Reader Unit := do
  if ← takeKeyword "else" then skipBlock g

def ifStatement (g : Rules) : Reader Unit := do
  let branch := fun (_ : Unit) => do
    if ← takeKeyword "elif" then
      let _ ← namedExpression g
      skipBlock g
      return ((), true)
    else return ((), false)
  let _ ← namedExpression g
  skipBlock g
  repeatStep branch ()
  elseBlock g

def whileStatement (g : Rules) : Reader Unit := do
  let _ ← namedExpression g
  skipBlock g
  elseBlock g

def forStatement (g : Rules) : Reader Unit := do
  let _ ← targets g
  expectKeyword "in"
  let _ ← starExpressions g
  skipBlock g
  elseBlock g

def withItem (g : Rules) : Reader Unit := do
  let _ ← g.expression
  if ← takeKeyword "as" then
    let starred ← takeOp "*"
    let target ← primary g
    if !(isTarget target) && !starred then unexpected

def withStatement (g : Rules) : Reader Unit := do
  let grouped : Reader Unit := do
    expectOp "("
    let _ ← commaSeparated (withItem g) (Token.isOp ")")
    expectOp ")"
    if !(← nextIsOp ":") then unexpected
  let listed : Reader Unit := do
    let _ ← commaSeparated (withItem g) fun _ => false
  orElse grouped listed
  skipBlock g

/-- The handlers of a `try`, all of one kind, then what follows them. -/
def tryStatement (g : Rules) : Reader Unit := do
  skipBlock g
  let handler := fun (state : Option Bool) => do
    if ← takeKeyword "except" then
      let starred ← takeOp "*"
      if state.isSome && state != some starred then unexpected
      if starred || !(← nextIsOp ":") then
        let _ ← g.expression
        importedAs
      skipBlock g
      return (some starred, true)
    else return (state, false)
  match ← repeatStep handler none with
  | some _ =>
    elseBlock g
    if ← takeKeyword "finally" then skipBlock g
  | none =>
    expectKeyword "finally"
    skipBlock g

def decorators (g : Rules) : Reader (List Expr) := do
  let step := fun (reversed : List Expr) => do
    if ← takeOp "@" then
      let e ← namedExpression g
      expect isNewline
      return (e :: reversed, true)
    else return (reversed, false)
  return (← repeatStep step []).reverse

def functionDef (g : Rules) (decorated first : Nat) (decorators : List Expr) : Reader Stmt := do
  let id ← expectName
  expectOp "("
  let (params, keywordDefaults, defaults) ← parameters g true (Token.isOp ")")
  expectOp ")"
  if ← takeOp "->" then
    let _ ← g.expression
  let body ← block g
  return .function (← extentFrom first) decorated ⟨id, params, keywordDefaults, defaults, decorators⟩
    body

def classDef (g : Rules) (first : Nat) : Reader Stmt := do
  let id ← expectName
  if ← takeOp "(" then
    let _ ← arguments g
  let body ← block g
  return .classDef (← extentFrom first) id body

/-- A definition of a function or a class, with its decorators. -/
def definition (g : Rules) : Reader Stmt := do
  let decorated ← position
  let decorators ← decorators g
  let first ← position
  if ← takeKeyword "class" then classDef g first
  else
    let _ ← takeKeyword "async"
    expectKeyword "def"
    functionDef g decorated first decorators

def caseBlock (g : Rules) : Reader Unit := do
  if !(← nextIsName "case") then unexpected
  let _ ← take
  openPattern g
  if ← takeKeyword "if" then
    let _ ← namedExpression g
  skipBlock g

def matchStatement (g : Rules) : Reader Unit := do
  let _ ← take
  let _ ← commaSeparated (starNamedExpression g) endsSequence
  expectOp ":"
  expect isNewline
  expect isIndent
  caseBlock g
  let step := fun (_ : Unit) => do
    if ← nextIsName "case" then
      caseBlock g
      return ((), true)
    else return ((), false)
  repeatStep step ()
  expect isDedent

/-- One statement, or the statements of one line. -/
def statement (g : Rules) : Reader (List Stmt) := do
  let first ← position
  let otherBy := fun (body : Reader Unit) => do
    let _ ← take
    body
    return [← otherFrom first]
  match ← peek with
  | .keyword "if" => otherBy (ifStatement g)
  | .keyword "while" => otherBy (whileStatement g)
  | .keyword "for" => otherBy (forStatement g)
  | .keyword "try" => otherBy (tryStatement g)
  | .keyword "with" => otherBy (withStatement g)
  | .keyword "def" => return [← definition g]
  | .keyword "class" => return [← definition g]
  | .op "@" => return [← definition g]
  | .keyword "async" =>
    match ← peekSecond with
    | .keyword "def" => return [← definition g]
    | .keyword "for" =>
      let _ ← take
      otherBy (forStatement g)
    | .keyword "with" =>
      let _ ← take
      otherBy (withStatement g)
    | _ =>
      let _ ← take
      unexpected
  | .name "match" =>
    orElse
      (do
        matchStatement g
        return [← otherFrom first])
      (simpleLine g)
  | _ => simpleLine g

/-- Statements up to the end of their block or of the text. -/
def statements (g : Rules) : Reader (List Stmt) := do
  let step := fun (reversed : List Stmt) => do
    match ← peek with
    | .dedent => return (reversed, false)
    | .stop => return (reversed, false)
    | _ => return ((← statement g).reverse ++ reversed, true)
  let first ← statement g
  return (← repeatStep step first.reverse).reverse

end TableAudit.Grammar
