import TableAudit.Grammar.Basic
import TableAudit.Grammar.TextLiteral
import TableAudit.Statement.Basic

namespace TableAudit.Grammar

/-- The rules that others recur to. -/
structure Rules where
  /-- The characters that an escape can call by name. -/
  named : String → Option Char
  expression : Reader Expr
  factor : Reader Expr
  primary : Reader Expr
  pattern : Reader Unit
  statements : Reader (List Stmt)
  /-- The expression in the replacement field of a formatted text. -/
  embedded : List Char → Option Expr

/-- The tokens that an expression can begin with. -/
def beginsExpression : Token → Bool
  | .name _ | .int _ | .float _ | .imaginary _ | .text _ => true
  | .keyword word => ["True", "False", "None", "not", "lambda", "await"].contains word
  | .op symbol => ["(", "[", "\x7b", "+", "-", "~", "...", "*"].contains symbol
  | _ => false

def endsSequence (token : Token) : Bool :=
  !beginsExpression token

/-- Whether a clause of a comprehension begins here. -/
def nextIsClause : Reader Bool := do
  if ← nextIsKeyword "for" then return true
  else if ← nextIsKeyword "async" then return (← peekSecond).isKeyword "for"
  else return false

/-- One item or a tuple. -/
def tupleOrItem (items : List Expr) (comma : Bool) : Expr :=
  match items, comma with
  | [item], false => item
  | _, _ => .tuple items

/-- What can stand before an equals sign or after `for`. -/
def isTarget : Expr → Bool
  | .name _ | .member .. | .subscript .. => true
  | .starred value => isTarget value
  | .tuple items => allTargets items
  | .list items => allTargets items
  | _ => false
where
  allTargets : List Expr → Bool
    | [] => true
    | item :: rest => isTarget item && allTargets rest

/-- What can stand before an augmented assignment or an annotation. -/
def isSingleTarget : Expr → Bool
  | .name _ | .member .. | .subscript .. => true
  | _ => false

/-- A left-associative operator of one level. -/
def leftOperator (ops : List (String × BinaryOp)) (operand : Reader Expr) : Reader Expr := do
  let step := fun (left : Expr) => do
    match ← peek with
    | .op symbol =>
      match ops.lookup symbol with
      | some op =>
        let _ ← take
        let right ← operand
        return (.binary left op right, true)
      | none => return (left, false)
    | _ => return (left, false)
  repeatStep step (← operand)

/-- Text literals that stand side by side. -/
def textLiteral (g : Rules) : Reader Expr := do
  let step := fun (reversed : List (List Char)) => do
    match ← peek with
    | .text lexeme =>
      let _ ← take
      return (lexeme :: reversed, true)
    | _ => return (reversed, false)
  let reversed ← repeatStep step []
  match textLiteral? g.named g.embedded reversed.reverse with
  | some e => return e
  | none => reject

/-- A name and a colon and equals sign, then a value; or an expression. -/
def namedExpression (g : Rules) : Reader Expr := do
  match ← peek, ← peekSecond with
  | .name id, .op ":=" =>
    let _ ← take
    let _ ← take
    return .assign (.name id) (← g.expression)
  | _, _ => g.expression

def bitAnd (shift : Reader Expr) : Reader Expr :=
  leftOperator [("&", .bitAnd)] shift

/-- The operators from the sum up to the alternative of bits. -/
def bitOr (g : Rules) : Reader Expr :=
  let term := leftOperator
    [("*", .multiply), ("/", .divide), ("//", .floorDivide), ("%", .modulo), ("@", .matrix)]
    g.factor
  let sum := leftOperator [("+", .add), ("-", .subtract)] term
  let shift := leftOperator [("<<", .shiftLeft), (">>", .shiftRight)] sum
  leftOperator [("|", .bitOr)] (leftOperator [("^", .bitXor)] (bitAnd shift))

def compareSymbols : List (String × CompareOp) :=
  [("==", .equal), ("!=", .notEqual), ("<", .less), ("<=", .lessEqual), (">", .greater),
    (">=", .greaterEqual)]

/-- Takes a comparison operator, if one comes next. -/
def compareOp : Reader (Option CompareOp) := do
  match ← peek with
  | .op symbol =>
    match compareSymbols.lookup symbol with
    | some op =>
      let _ ← take
      return some op
    | none => return none
  | .keyword "in" =>
    let _ ← take
    return some .isIn
  | .keyword "not" =>
    let _ ← take
    expectKeyword "in"
    return some .notIn
  | .keyword "is" =>
    let _ ← take
    if ← takeKeyword "not" then return some .isNot else return some .is
  | _ => return none

def comparison (g : Rules) : Reader Expr := do
  let left ← bitOr g
  let step := fun (state : List CompareOp × List Expr) => do
    match ← compareOp with
    | some op =>
      let right ← bitOr g
      return ((op :: state.1, right :: state.2), true)
    | none => return (state, false)
  let (ops, rest) ← repeatStep step ([], [])
  if ops.isEmpty then return left else return .compare left ops.reverse rest.reverse

def inversion (g : Rules) : Reader Expr := do
  let step := fun (count : Nat) => do
    if ← takeKeyword "not" then return (count + 1, true) else return (count, false)
  let count ← repeatStep step 0
  let operand ← comparison g
  return (List.range count).foldl (fun e _ => .unary .not e) operand

/-- Operands of a boolean operator; a single one stands for itself. -/
def booleanOperands (word : String) (op : BooleanOp) (operand : Reader Expr) : Reader Expr := do
  let first ← operand
  let step := fun (reversed : List Expr) => do
    if ← takeKeyword word then return ((← operand) :: reversed, true)
    else return (reversed, false)
  match ← repeatStep step [first] with
  | [single] => return single
  | reversed => return .boolean op reversed.reverse

def disjunction (g : Rules) : Reader Expr :=
  booleanOperands "or" .or (booleanOperands "and" .and (inversion g))

/-- The parameters read so far. -/
structure ParamState where
  params : Params
  defaults : List Expr
  keywordDefaults : List Expr
  /-- A star was read, so that what follows is passed by name. -/
  starred : Bool
  /-- A star without a name was read and no parameter after it. -/
  pending : Bool
  finished : Bool

/-- An annotation after a parameter, where parameters can have one. -/
def annotation (annotated : Bool) (value : Reader Expr) : Reader Unit := do
  if annotated then
    if ← takeOp ":" then
      let _ ← value

/-- After a parameter: a comma, or the end of the parameters. -/
def endParam (closes : Token → Bool) (state : ParamState) : Reader (ParamState × Bool) := do
  if ← takeOp "," then return (state, true)
  else if closes (← peek) then return (state, false)
  else unexpected

def paramStep (g : Rules) (annotated : Bool) (closes : Token → Bool) (state : ParamState) :
    Reader (ParamState × Bool) := do
  let p := state.params
  if closes (← peek) then return (state, false)
  else if state.finished then unexpected
  else if ← takeOp "**" then
    let id ← expectName
    annotation annotated g.expression
    if state.pending then reject
    endParam closes { state with params := { p with doubleStar := some id }, finished := true }
  else if (← nextIsOp "*") && !state.starred then
    let _ ← take
    if ← nextIsOp "," then endParam closes { state with starred := true, pending := true }
    else
      let id ← expectName
      let starValue : Reader Expr := do
        if ← takeOp "*" then return .starred (← bitOr g) else g.expression
      annotation annotated starValue
      endParam closes { state with params := { p with star := some id }, starred := true }
  else if (← nextIsOp "/") && !state.starred && p.slashed.isEmpty && !p.plain.isEmpty then
    let _ ← take
    endParam closes { state with params := { p with slashed := p.plain, plain := [] } }
  else
    let id ← expectName
    annotation annotated g.expression
    let default ← (do if ← takeOp "=" then return some (← g.expression) else return none)
    if state.starred then
      endParam closes
        { state with
          params := { p with keywords := p.keywords ++ [(id, default.isSome)] }
          keywordDefaults := state.keywordDefaults ++ default.toList
          pending := false }
    else if default.isNone && !state.defaults.isEmpty then unexpected
    else
      endParam closes
        { state with
          params := { p with plain := p.plain ++ [id] }
          defaults := state.defaults ++ default.toList }

/-- The parameters of a function up to a closing token, with their defaults: those of keyword
    parameters, and those of positional ones. -/
def parameters (g : Rules) (annotated : Bool) (closes : Token → Bool) :
    Reader (Params × List Expr × List Expr) := do
  let empty : Params := ⟨[], [], none, [], none⟩
  let state ← repeatStep (paramStep g annotated closes) ⟨empty, [], [], false, false, false⟩
  if state.pending then unexpected
  else return (state.params, state.keywordDefaults, state.defaults)

def lambda (g : Rules) : Reader Expr := do
  expectKeyword "lambda"
  let (params, keywordDefaults, defaults) ← parameters g false (Token.isOp ":")
  expectOp ":"
  return .lambda params keywordDefaults defaults (← g.expression)

/-- Whether a missing comma may be looked for after an expression that begins with these tokens:
    not after what could be a misspelt prefix of a text, nor after a soft keyword. -/
def mayMissComma (first second : Token) : Bool :=
  match first, second with
  | .name _, .text _ => false
  | .name id, _ => !(["match", "case", "_"].contains id)
  | _, _ => true

/-- Looks whether a second expression follows where a comma must be missing. To see its end takes
    a look at the token behind it. -/
def probeMissingComma (g : Rules) : Reader Unit := fun input =>
  match g.expression { input with probing := false } with
  | .ok (_, after) => .error ⟨after.index, atFault after, true⟩
  | .error failure => if failure.atFault then .error failure else .ok ((), input)

def expression (g : Rules) : Reader Expr := do
  let first ← peek
  let second ← peekSecond
  if first.isKeyword "lambda" then lambda g
  else
    let body ← disjunction g
    if (← isProbing) && mayMissComma first second && beginsExpression (← peek) then
      probeMissingComma g
    if ← takeKeyword "if" then
      let test ← disjunction g
      expectKeyword "else"
      return .conditional test body (← g.expression)
    else return body

def starExpression (g : Rules) : Reader Expr := do
  if ← takeOp "*" then return .starred (← bitOr g) else g.expression

def starNamedExpression (g : Rules) : Reader Expr := do
  if ← takeOp "*" then return .starred (← bitOr g) else namedExpression g

/-- Expressions with commas between them are a tuple. -/
def starExpressions (g : Rules) : Reader Expr := do
  let (items, comma) ← commaSeparated (starExpression g) endsSequence
  return tupleOrItem items comma

def yieldExpression (g : Rules) : Reader Expr := do
  expectKeyword "yield"
  if ← takeKeyword "from" then return .yieldFrom (← g.expression)
  else if beginsExpression (← peek) then return .yield (some (← starExpressions g))
  else return .yield none

/-- What stands after an equals sign. -/
def assignedValue (g : Rules) : Reader Expr := do
  if ← nextIsKeyword "yield" then yieldExpression g else starExpressions g

/-- The name of a keyword argument, told by the equals sign after it. -/
def keywordName (token second : Token) : Option String :=
  match token, second with
  | .name id, .op "=" => some id
  | _, _ => none

/-- How far the arguments of a call have got: a positional one cannot follow a named one, nor a
    starred one a spread mapping. -/
inductive ArgumentPhase
  | positional | named | spread
deriving DecidableEq

structure CallState where
  args : List Expr
  names : List (Option String)
  values : List Expr
  phase : ArgumentPhase

def CallState.isEmpty (state : CallState) : Bool :=
  state.args.isEmpty && state.values.isEmpty

/-- Targets after `for`: names, members, items, and sequences of these. -/
def targets (g : Rules) : Reader Expr := do
  let target : Reader Expr := do
    let starred ← takeOp "*"
    let e ← g.primary
    if !isTarget e then unexpected
    else if starred then return .starred e
    else return e
  let (items, comma) ← commaSeparated target endsSequence
  return tupleOrItem items comma

/-- The clauses of a comprehension, at least one. -/
def clauses (g : Rules) : Reader (List Expr) := do
  let condition := fun (reversed : List Expr) => do
    if ← takeKeyword "if" then return ((← disjunction g) :: reversed, true)
    else return (reversed, false)
  let clause : Reader Expr := do
    let isAsync ← takeKeyword "async"
    expectKeyword "for"
    let target ← targets g
    expectKeyword "in"
    let source ← disjunction g
    let conditions ← repeatStep condition []
    return .clause isAsync target source conditions.reverse
  let step := fun (reversed : List Expr) => do
    if ← nextIsClause then return ((← clause) :: reversed, true)
    else return (reversed, false)
  return (← repeatStep step []).reverse

/-- One argument of a call and what may follow it. -/
def argumentStep (g : Rules) (state : CallState) :
    Reader (CallState × Bool) := do
  let goOn := fun (state : CallState) => do
    if ← takeOp "," then return (state, !(← nextIsOp ")")) else return (state, false)
  match keywordName (← peek) (← peekSecond) with
  | some id =>
    let _ ← take
    let _ ← take
    let value ← g.expression
    let phase := if state.phase = .spread then .spread else .named
    goOn { state with
      names := state.names ++ [some id], values := state.values ++ [value], phase }
  | none =>
    if ← takeOp "**" then
      let value ← g.expression
      goOn { state with
        names := state.names ++ [none], values := state.values ++ [value], phase := .spread }
    else if (← nextIsOp "*") && state.phase ≠ .spread then
      let _ ← take
      let value ← g.expression
      goOn { state with args := state.args ++ [.starred value] }
    else if state.phase ≠ .positional then unexpected
    else
      let value ← namedExpression g
      if state.isEmpty && (← nextIsClause) then
        let clauses ← clauses g
        return ({ state with args := [.comprehension .round value clauses] }, false)
      else goOn { state with args := state.args ++ [value] }

/-- The arguments of a call up to and with the closing parenthesis. -/
def arguments (g : Rules) : Reader CallState := do
  let empty : CallState := ⟨[], [], [], .positional⟩
  if ← takeOp ")" then return empty
  else
    let state ← repeatStep (argumentStep g) empty
    expectOp ")"
    return state

/-- One entry between square brackets after a value. -/
def sliceItem (g : Rules) : Reader Expr := do
  let bound : Reader (Option Expr) := do
    if endsSequence (← peek) then return none else return some (← g.expression)
  if ← nextIsOp "*" then
    let _ ← take
    return .starred (← g.expression)
  else
    let named := (← peekSecond).isOp ":="
    let lower ← (do
      if ← nextIsOp ":" then return none else return some (← namedExpression g))
    if named then return lower.getD (.slice none none none)
    else if ← takeOp ":" then
      let upper ← bound
      let step ← (do if ← takeOp ":" then bound else return none)
      return .slice lower upper step
    else
      match lower with
      | some e => return e
      | none => unexpected

def beginsSlice (token : Token) : Bool :=
  beginsExpression token || token.isOp ":"

def isStarred : Expr → Bool
  | .starred _ => true
  | _ => false

def slices (g : Rules) : Reader Expr := do
  let (items, comma) ← commaSeparated (sliceItem g) fun token => !beginsSlice token
  return tupleOrItem items (comma || items.any isStarred)

/-- Between parentheses: nothing, a value, a tuple or a comprehension. -/
def parenthesized (g : Rules) : Reader Expr := do
  expectOp "("
  if ← takeOp ")" then return .tuple []
  else if ← nextIsKeyword "yield" then
    let e ← yieldExpression g
    expectOp ")"
    return e
  else
    let first ← starNamedExpression g
    if (← nextIsClause) && !isStarred first then
      let clauses ← clauses g
      expectOp ")"
      return .comprehension .round first clauses
    else if ← takeOp "," then
      let rest ← (do
        if endsSequence (← peek) then return []
        else return (← commaSeparated (starNamedExpression g) endsSequence).1)
      expectOp ")"
      return .tuple (first :: rest)
    else if isStarred first then unexpected
    else
      expectOp ")"
      return first

/-- Between square brackets: a list or a comprehension. -/
def listDisplay (g : Rules) : Reader Expr := do
  expectOp "["
  if ← takeOp "]" then return .list []
  else
    let first ← starNamedExpression g
    if (← nextIsClause) && !isStarred first then
      let clauses ← clauses g
      expectOp "]"
      return .comprehension .square first clauses
    else
      let rest ← (do
        if ← takeOp "," then
          if endsSequence (← peek) then return []
          else return (← commaSeparated (starNamedExpression g) endsSequence).1
        else return [])
      expectOp "]"
      return .list (first :: rest)

/-- An entry of a dictionary: a spread mapping, or a key and a value. -/
def dictEntry (g : Rules) : Reader (Option Expr × Expr) := do
  if ← takeOp "**" then return (none, ← bitOr g)
  else
    let key ← g.expression
    expectOp ":"
    return (some key, ← g.expression)

def dictOf (entries : List (Option Expr × Expr)) : Expr :=
  .dict (entries.map fun entry => entry.1.isSome) (entries.filterMap Prod.fst)
    (entries.map Prod.snd)

def beginsEntry (token : Token) : Bool :=
  beginsExpression token || token.isOp "**"

/-- The entries of a dictionary after the first, up to and with the closing brace. -/
def dictRest (g : Rules) (first : Option Expr × Expr) : Reader Expr := do
  let rest ← (do
    if ← takeOp "," then
      if beginsEntry (← peek) then
        return (← commaSeparated (dictEntry g) fun token => !beginsEntry token).1
      else return []
    else return [])
  expectOp "\x7d"
  return dictOf (first :: rest)

/-- Between braces: a dictionary, a set or a comprehension of either. -/
def braceDisplay (g : Rules) : Reader Expr := do
  expectOp "\x7b"
  if ← takeOp "\x7d" then return .dict [] [] []
  else if ← nextIsOp "**" then dictRest g (← dictEntry g)
  else
    let named := (← peekSecond).isOp ":="
    let first ← starNamedExpression g
    if (← nextIsOp ":") && !named && !isStarred first then
      let _ ← take
      let value ← g.expression
      if ← nextIsClause then
        let clauses ← clauses g
        expectOp "\x7d"
        return .dictComprehension first value clauses
      else dictRest g (some first, value)
    else if (← nextIsClause) && !isStarred first then
      let clauses ← clauses g
      expectOp "\x7d"
      return .comprehension .curly first clauses
    else
      let rest ← (do
        if ← takeOp "," then
          if endsSequence (← peek) then return []
          else return (← commaSeparated (starNamedExpression g) endsSequence).1
        else return [])
      expectOp "\x7d"
      return .set (first :: rest)

def atom (g : Rules) : Reader Expr := do
  match ← peek with
  | .name id =>
    let _ ← take
    return .name id
  | .keyword "True" =>
    let _ ← take
    return .literal (.truth true)
  | .keyword "False" =>
    let _ ← take
    return .literal (.truth false)
  | .keyword "None" =>
    let _ ← take
    return .literal .null
  | .int value =>
    let _ ← take
    return .literal (.int value)
  | .float value =>
    let _ ← take
    return .literal (.float value)
  | .imaginary value =>
    let _ ← take
    return .literal (.imaginary value)
  | .text _ => textLiteral g
  | .op "..." =>
    let _ ← take
    return .literal .ellipsis
  | .op "(" => parenthesized g
  | .op "[" => listDisplay g
  | .op "\x7b" => braceDisplay g
  | _ => unexpected

/-- What follows an atom: members, calls and items. -/
def trailers (g : Rules) (first : Expr) : Reader Expr := do
  let step := fun (e : Expr) => do
    if ← takeOp "." then return (.member e (← expectName), true)
    else if ← takeOp "(" then
      let call ← arguments g
      return (.call e call.args call.names call.values, true)
    else if ← takeOp "[" then
      let index ← slices g
      expectOp "]"
      return (.subscript e index, true)
    else return (e, false)
  repeatStep step first

def primary (g : Rules) : Reader Expr := do
  trailers g (← atom g)

def power (g : Rules) : Reader Expr := do
  let base ← (do
    if ← takeKeyword "await" then return .await (← primary g) else primary g)
  if ← takeOp "**" then return .binary base .power (← g.factor) else return base

def signs : List (String × UnaryOp) :=
  [("+", .plus), ("-", .minus), ("~", .invert)]

def factor (g : Rules) : Reader Expr := do
  match ← peek with
  | .op symbol =>
    match signs.lookup symbol with
    | some op =>
      let _ ← take
      return .unary op (← g.factor)
    | none => power g
  | _ => power g

end TableAudit.Grammar
