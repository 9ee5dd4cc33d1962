import TableAudit.Block.Records
import TableAudit.Module.Basic
import TableAudit.Predicate.Call

namespace TableAudit.Module

inductive SiteKind
  | top
  | functionBody
  | classBody
deriving DecidableEq, Repr

/-- Where statements are performed. -/
structure Site where
  kind : SiteKind
  /-- What stands before the names that are defined here. -/
  path : String
  /-- The variables of the function or the class itself. -/
  own : Cells
  /-- The variables of the functions around it. -/
  outer : Cells
  /-- The tokens of the statement that is performed. -/
  extent : Extent

namespace Site

def module : Site :=
  ⟨.top, "", [], [], ⟨0, 0⟩⟩

/-- The variables that a function defined here can see. -/
def visible (site : Site) : Cells :=
  match site.kind with
  | .classBody => site.outer
  | _ => site.own ++ site.outer

def unassigned (name : String) : Raised :=
  .of (.other "UnboundLocalError")
    ("cannot access local variable '" ++ name ++ "' where it is not associated with a value")

def unassignedOutside (name : String) : Raised :=
  .of (.other "NameError")
    ("cannot access free variable '" ++ name ++ "' where it is not associated with a value " ++
      "in enclosing scope")

def lookupFailed (failure : LookupFailure) : Raised :=
  match failure with
  | .undefined _ => .of (.other "NameError") failure.message
  | .noMember .. => .of .attributeError failure.message

/-- The value of a name outside all functions. -/
def lookupGlobal (name : String) : Work Value := do
  match (← get).globals.resolve name [] with
  | .ok value => return value
  | .error failure => Work.raise (lookupFailed failure)

/-- The value of a name. What a class binds later is looked up outside all functions. -/
def lookup (site : Site) (name : String) : Work Value := do
  match site.own.lookup name with
  | some cell =>
    match ← Work.cell? cell with
    | some value => return value
    | none =>
      if site.kind = .classBody then lookupGlobal name else Work.raise (unassigned name)
  | none =>
    match site.outer.lookup name with
    | some cell =>
      match ← Work.cell? cell with
      | some value => return value
      | none => Work.raise (unassignedOutside name)
    | none => lookupGlobal name

def assign (site : Site) (name : String) (value : Value) : Work Unit := do
  match site.own.lookup name with
  | some cell => Work.setCell cell value
  | none => modify fun w => { w with globals := w.globals ++ [(name, value)] }

def tooFew (wanted got : Nat) : Raised :=
  .of .valueError
    ("not enough values to unpack (expected " ++ toString wanted ++ ", got " ++ toString got ++
      ")")

def tooMany (wanted : Nat) : Raised :=
  .of .valueError ("too many values to unpack (expected " ++ toString wanted ++ ")")

/-- Assigns values to as many names. -/
def assignEach (site : Site) (names : List String) (values : List Value) : Work Unit := do
  if values.length < names.length then Work.raise (tooFew names.length values.length)
  if names.length < values.length then Work.raise (tooMany names.length)
  (names.zip values).forM fun entry => site.assign entry.1 entry.2

/-- Assigns a value to a target: a name, or names that take its items. -/
def assignTo (site : Site) (value : Value) : Expr → Work Unit
  | .name id => site.assign id value
  | .tuple items => do
    site.assignEach (items.flatMap Expr.targetNames) (← Work.ofAct value.collect)
  | .list items => do
    site.assignEach (items.flatMap Expr.targetNames) (← Work.ofAct value.collect)
  | _ => return ()

end Site

/-- The value of a literal. -/
def literalValue : Literal → Value
  | .text value _ => .text value
  | .bytes value => .bytes value
  | .int value => .int value
  | .float value => .float value
  | .truth value => .bool value
  | .ellipsis => .ellipsis
  | .imaginary _ => .null
  | .null => .null

def negated (value : Value) : Except Raised Value :=
  match Number.ofValue? value with
  | some (.int n) => .ok (.int (-n))
  | some (.float x) => .ok (.float (-x))
  | none => .error (.of .typeError ("bad operand type for unary -: '" ++ value.typeName ++ "'"))

def memberOf (value : Value) (attr : String) : Work Value :=
  match value.follow .standard [attr] with
  | .ok member => return member
  | .error failure => Work.raise (Site.lookupFailed failure)

/-- Compiles what a value declares under a name: the body of a function, or what any other value
    says. The fields of a check set are no records. -/
def declare (scope : Scope) (name declarations : Value) : Work CheckSet := do
  match name, (← get).definition? declarations, declarations with
  | .text title, some d, _ => Work.ofJob (Block.reported (d.compile title))
  | .text _, none, .checkSet _ title =>
    let record := Value.tuple [.text "name", .text title]
    throw (Block.refusal scope.language record .notARecord)
  | _, _, _ => Work.ofJob (Block.compileValue scope name declarations)

/-- No function can be called within itself without end. -/
def tooDeep : Raised :=
  .of (.other "RecursionError") "maximum recursion depth exceeded"

/-- The values of arguments, of which some stand for many. -/
def spreadArguments (args : List (Bool × Value)) : Work (List Value) := do
  let parts ← args.mapM fun (spread, value) =>
    if spread then Work.ofAct value.collect else return [value]
  return parts.flatten

/-- The named values that a mapping stands for. -/
def entriesOf (value : Value) : List (String × Value) :=
  match value with
  | .dict entries =>
    entries.filterMap fun entry =>
      match entry.1 with
      | .text name => some (name, entry.2)
      | _ => none
  | _ => []

def namedArguments (names : List (Option String)) (values : List Value) :
    List (String × Value) :=
  (names.zip values).flatMap fun (name, value) =>
    match name with
    | some name => [(name, value)]
    | none => entriesOf value

/-- Makes a function with the default values of its parameters. -/
def define (site : Site) (name : String) (params : Params) (defaults keywordDefaults : List Value)
    (body : List Stmt) (source : String) : Work Value := do
  let keywords := (params.keywords.filter Prod.snd).map Prod.fst
  let path := site.path ++ name
  let f : Function :=
    { path, params, defaults, keywordDefaults := keywords.zip keywordDefaults, body, source
      outer := site.visible }
  return .callable (← Work.addRoutine path (.function f))

mutual

def evaluate : Nat → Site → Expr → Work Value
  | 0, _, _ => Work.raise tooDeep
  | fuel + 1, site, e => do
    match e with
    | .name id => site.lookup id
    | .literal literal => return literalValue literal
    | .member value attr => memberOf (← evaluate fuel site value) attr
    | .tuple items =>
      return .tuple (← spreadArguments (← evaluateAll fuel site items))
    | .list items =>
      return .list (← spreadArguments (← evaluateAll fuel site items))
    | .dict _ keys values =>
      let keys ← evaluateAll fuel site keys
      let values ← evaluateAll fuel site values
      return .dict ((keys.zip values).foldl (fun done entry =>
        Value.put done entry.1.2 entry.2.2) [])
    | .call function args names values =>
      let callee ← evaluate fuel site function
      let args ← spreadArguments (← evaluateAll fuel site args)
      let values ← evaluateAll fuel site values
      apply fuel callee args (namedArguments names (values.map Prod.snd))
    | .unary .minus operand => Work.ofResult (negated (← evaluate fuel site operand))
    | .unary .not operand =>
      return .bool !(← Work.ofResult (← evaluate fuel site operand).truth)
    | .conditional test body otherwise =>
      if ← Work.ofResult (← evaluate fuel site test).truth then evaluate fuel site body
      else evaluate fuel site otherwise
    | .assign target value =>
      let value ← evaluate fuel site value
      site.assignTo value target
      return value
    | .lambda params keywordDefaults defaults body =>
      let defaults ← evaluateAll fuel site defaults
      let keywordDefaults ← evaluateAll fuel site keywordDefaults
      define site "<lambda>" params (defaults.map Prod.snd) (keywordDefaults.map Prod.snd)
        [.ret site.extent (some body)] ((← get).anonymousLines site.extent)
    | _ => return .null

/-- The values of expressions, each with whether it stands for many. -/
def evaluateAll : Nat → Site → List Expr → Work (List (Bool × Value))
  | _, _, [] => return []
  | 0, _, _ => Work.raise tooDeep
  | fuel + 1, site, e :: rest => do
    let first ← match e with
      | .starred value => do pure (true, ← evaluate fuel site value)
      | _ => do pure (false, ← evaluate fuel site e)
    return first :: (← evaluateAll fuel site rest)

/-- What a call returns. -/
def apply : Nat → Value → List Value → List (String × Value) → Work Value
  | 0, _, _, _ => Work.raise tooDeep
  | fuel + 1, callee, args, named => do
    match callee with
    | .definedClass .. => return .space []
    | .callable (.defined number _) =>
      match (← get).routines[number]? with
      | some (.function f) =>
        let values ← Work.ofResult (f.signature.bind args named)
        let own ← Work.addCells f.ownNames
        let site : Site := ⟨.functionBody, f.path ++ ".<locals>.", own, f.outer, ⟨0, 0⟩⟩
        values.forM fun entry => site.assign entry.1 entry.2
        return (← perform fuel site f.body).getD .null
      | some (.marker marker) => Work.ofResult (marker.call args named)
      | some (.declarer declarer) =>
        let values ← Work.ofResult (declarer.signature.bind args named)
        let given := (values.head?.map Prod.snd).getD .null
        match declarer.name with
        | none =>
          let inner : Declarer := ⟨some given⟩
          return .callable (← Work.addRoutine inner.title (.declarer inner))
        | some name => Work.addCheckSet (← declare {} name given)
      | some .construct => return .space []
      | none => return .null
    | .callable target => Work.ofAct (target.call args)
    | _ => Work.raise callee.notCallable

/-- Performs statements up to the first return, and gives what is returned. -/
def perform : Nat → Site → List Stmt → Work (Option Value)
  | _, _, [] => return none
  | 0, _, _ => Work.raise tooDeep
  | fuel + 1, site, s :: rest => do
    match s with
    | .expr extent value =>
      let _ ← evaluate fuel { site with extent } value
      perform fuel site rest
    | .assign extent targets value =>
      let value ← evaluate fuel { site with extent } value
      targets.forM (site.assignTo value)
      perform fuel site rest
    | .ret extent value =>
      match value with
      | some value => return some (← evaluate fuel { site with extent } value)
      | none => return some .null
    | .function extent decorated head body =>
      let whole : Extent := ⟨decorated, extent.last⟩
      let here := { site with extent := whole }
      let decorators ← evaluateAll fuel here head.decorators
      let defaults ← evaluateAll fuel here head.defaults
      let keywordDefaults ← evaluateAll fuel here head.keywordDefaults
      let function ← define site head.name head.params (defaults.map Prod.snd)
        (keywordDefaults.map Prod.snd) body ((← get).definitionLines whole)
      let value ← decorate fuel (decorators.reverse.map Prod.snd) function
      site.assign head.name value
      perform fuel site rest
    | .classDef _ name body =>
      let own ← Work.addCells (Stmt.boundByAll body)
      let path := site.path ++ name
      let inner : Site := ⟨.classBody, path ++ ".", own, site.visible, ⟨0, 0⟩⟩
      let _ ← perform fuel inner body
      let members ← own.filterMapM fun (name, cell) => do
        return (← Work.cell? cell).map fun value => (name, value)
      match ← Work.addRoutine path .construct with
      | .defined number path => site.assign name (.definedClass number path members)
      | other => site.assign name (.callable other)
      perform fuel site rest
    | _ => perform fuel site rest

/-- What decorators make of a value, the innermost first. -/
def decorate : Nat → List Value → Value → Work Value
  | _, [], value => return value
  | 0, _, _ => Work.raise tooDeep
  | fuel + 1, decorator :: rest, value => do
    decorate fuel rest (← apply fuel decorator [value] [])

end

end TableAudit.Module
