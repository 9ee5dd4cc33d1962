import TableAudit.Call.Signature
import TableAudit.Statement.Basic

namespace TableAudit

/-- The names that a piece of a text reads: those of its own, and those that the functions within
    it read without binding them. -/
structure Reads where
  own : List String
  inner : List String
deriving DecidableEq, Repr

namespace Reads

def none : Reads :=
  ⟨[], []⟩

def one (name : String) : Reads :=
  ⟨[name], []⟩

def append (a b : Reads) : Reads :=
  ⟨a.own ++ b.own, a.inner ++ b.inner⟩

instance : Append Reads :=
  ⟨append⟩

def all (reads : List Reads) : Reads :=
  ⟨reads.flatMap own, reads.flatMap inner⟩

/-- What a function reads that binds these names. -/
def inFunction (bound : List String) (reads : Reads) : Reads :=
  ⟨[], (reads.own ++ reads.inner).filter fun name => !bound.contains name⟩

/-- What a class reads that binds these names. -/
def inClass (bound : List String) (reads : Reads) : Reads :=
  ⟨[], (reads.own.filter fun name => !bound.contains name) ++ reads.inner⟩

end Reads

namespace Expr

/-- The names that an expression binds as a target. -/
def targetNames : Expr → List String
  | name id => [id]
  | starred value => value.targetNames
  | tuple items => allNames items
  | list items => allNames items
  | _ => []
where
  allNames : List Expr → List String
    | [] => []
    | item :: rest => item.targetNames ++ allNames rest

/-- The names that the clauses of a comprehension bind. -/
def clauseNames : List Expr → List String
  | [] => []
  | clause _ target _ _ :: rest => target.targetNames ++ clauseNames rest
  | _ :: rest => clauseNames rest

/-- The names that assignments within an expression bind. -/
def assignedNames (e : Expr) : List String :=
  let inner := e.children.attach.map fun ⟨part, _⟩ => (part, part.assignedNames)
  match e with
  | assign target _ => target.targetNames ++ inner.flatMap Prod.snd
  | lambda _ keywordDefaults defaults _ =>
    (inner.take (keywordDefaults.length + defaults.length)).flatMap Prod.snd
  | _ => inner.flatMap Prod.snd
termination_by sizeOf e
decreasing_by exact sizeOf_lt_of_mem_children (by assumption)

/-- The names that an expression reads. The source of the first clause of a comprehension does not
    see what its clauses bind. -/
def reads (e : Expr) : Reads :=
  let parts := e.children.attach.map fun ⟨part, _⟩ => part.reads
  match e with
  | name id => .one id
  | lambda params keywordDefaults defaults _ =>
    let outer := keywordDefaults.length + defaults.length
    .all (parts.take outer) ++ (Reads.all (parts.drop outer)).inFunction params.names
  | comprehension _ _ clauses =>
    match clauses with
    | clause _ _ source _ :: _ => source.reads ++ (Reads.all parts).inFunction (clauseNames clauses)
    | _ => .all parts
  | dictComprehension _ _ clauses =>
    match clauses with
    | clause _ _ source _ :: _ => source.reads ++ (Reads.all parts).inFunction (clauseNames clauses)
    | _ => .all parts
  | _ => .all parts
termination_by sizeOf e
decreasing_by
  · exact sizeOf_lt_of_mem_children (by assumption)
  · simp; omega
  · simp; omega

end Expr

namespace FunctionHead

/-- The expressions in the head of a function, which are evaluated where it is defined. -/
def expressions (head : FunctionHead) : List Expr :=
  head.decorators ++ head.defaults ++ head.keywordDefaults

end FunctionHead

namespace Stmt

/-- The names that a statement binds. -/
def bound : Stmt → List String
  | expr _ value => value.assignedNames
  | assign _ targets value => targets.flatMap Expr.targetNames ++ value.assignedNames
  | ret _ value => value.toList.flatMap Expr.assignedNames
  | function _ _ head _ => head.name :: head.expressions.flatMap Expr.assignedNames
  | classDef _ name _ => [name]
  | pass _ => []
  | other _ => []

def boundByAll (statements : List Stmt) : List String :=
  (statements.flatMap bound).eraseDups

mutual

/-- The names that a statement reads. -/
def reads : Stmt → Reads
  | expr _ value => value.reads
  | assign _ targets value => value.reads ++ .all (targets.map Expr.reads)
  | ret _ value => .all (value.toList.map Expr.reads)
  | function _ _ head body =>
    .all (head.expressions.map Expr.reads) ++
      (readsOfAll body).inFunction (head.params.names ++ boundByAll body)
  | classDef _ _ body => (readsOfAll body).inClass (boundByAll body)
  | pass _ => .none
  | other _ => .none

def readsOfAll : List Stmt → Reads
  | [] => .none
  | s :: rest => s.reads ++ readsOfAll rest

end

end Stmt

end TableAudit
