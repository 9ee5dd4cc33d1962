import TableAudit.Block.Compile
import TableAudit.Check.Fields
import TableAudit.Run.CheckSet

namespace TableAudit.Block

/-- The three parts of a record. -/
def recordParts (record : Value) : StateM World (Option (Value × Value × Value)) := fun world =>
  match record.collect world with
  | (.ok [name, predicate, columns], world) => (some (name, predicate, columns), world)
  | (_, world) => (none, world)

/-- The texts among values, if all are texts. -/
def allTexts : List Value → Option (List String)
  | [] => some []
  | .text s :: rest => (allTexts rest).map (s :: ·)
  | _ => none

/-- The columns of a record; a text is no sequence of names. -/
def recordColumns (columns : Value) : StateM World (Option (List String)) := fun world =>
  match columns with
  | .text _ => (none, world)
  | _ =>
    match columns.collect world with
    | (.ok items, world) => (allTexts items, world)
    | (.error _, world) => (none, world)

/-- The fault of a value that is no declaration, which the error shows as it is printed. -/
def refusal (language : Language) (value : Value) (reason : Reason) : Fault :=
  match language.print value with
  | .ok shown => .compile (errorFor shown reason)
  | .error error => .raised error

/-- The check that a record makes of a name and a predicate, given the columns. -/
def checkOfColumns (name : String) (predicate : Callable) (columns : Value) :
    StateM World (Except Fault Check) := fun world =>
  match recordColumns columns world with
  | (none, world) => (.error (.compile (errorFor name .badColumns)), world)
  | (some columns, world) =>
    if columns.isEmpty then (.error (.compile (errorFor name .noColumn)), world)
    else (.ok ⟨name, predicate, columns.eraseDups⟩, world)

/-- The check of a record. -/
def checkOfRecord (language : Language) (record : Value) : StateM World (Except Fault Check) :=
  fun world =>
    match recordParts record world with
    | (none, world) => (.error (refusal language record .notARecord), world)
    | (some (.text name, predicate, columns), world) =>
      match predicate.callable? with
      | none => (.error (.compile (errorFor name .recordNotCallable)), world)
      | some predicate =>
        match language.isAnonymous predicate with
        | .error error => (.error (.raised error), world)
        | .ok true => (.error (.compile (errorFor name .recordAnonymous)), world)
        | .ok false => checkOfColumns name predicate columns world
    | (some _, world) => (.error (refusal language record .nameNotText), world)

/-- Builds checks from records, given the checks before them. -/
def buildFrom (language : Language) :
    List Check → List Value → StateM World (Except Fault (List Check))
  | done, [], world => (.ok done, world)
  | done, record :: rest, world =>
    match checkOfRecord language record world with
    | (.error fault, world) => (.error fault, world)
    | (.ok check, world) =>
      if done.any fun before => before.name == check.name then
        (.error (.compile (errorFor check.name (.duplicateName check.name))), world)
      else buildFrom language (done ++ [check]) rest world

/-- Builds a check set from records. -/
def build (name records : Value) (language : Language := .standard) : Job CheckSet :=
  (Job.ofAct records.collect).andThen fun items world =>
    match buildFrom language [] items world with
    | (.error fault, world) => (.error fault, world)
    | (.ok checks, world) =>
      match CheckSet.ofFields [("name", name)] checks with
      | .ok set => (.ok set, world)
      | .error issues => (.error (.invalid issues), world)

def compiledEntry (set : CheckSet) : Entry :=
  { level := .debug
    reporter := .compiler
    message :=
      "Compiled check set " ++ Text.Quoted.quote set.name ++ " with " ++ toString set.size ++
        " check(s)" }

/-- Reports a check set that was compiled. -/
def reported (result : Except Fault CheckSet) : Job CheckSet := fun world =>
  match result with
  | .ok set => (.ok set, world.report (compiledEntry set))
  | .error fault => (.error fault, world)

/-- Compiles a text of declarations under a name, which must be a text. -/
def compileNamed (scope : Scope) (name : Value) (text : String) : Job CheckSet :=
  match name with
  | .text name => reported (compileText scope name text)
  | _ => Job.fault (refusal scope.language name .setNameNotText)

/-- Whether a value goes through items. -/
def isIterable : Value → Bool
  | .stream _ => true
  | value => value.items?.isSome

/-- Compiles any value that declares checks under a name. -/
def compileValue (scope : Scope) (name declarations : Value) : Job CheckSet :=
  match name, declarations with
  | .text name, .text source => reported (compileText scope name source)
  | .text _, _ =>
    if isIterable declarations then build name declarations scope.language
    else Job.fault (refusal scope.language declarations .notDeclarations)
  | _, _ => Job.fault (refusal scope.language name .setNameNotText)

end TableAudit.Block
