import TableAudit.Expr.Basic

namespace TableAudit

/-- The tokens that a statement is made of, from the first up to but not including the second,
    counted from the beginning of the text. -/
structure Extent where
  first : Nat
  last : Nat
deriving DecidableEq, Repr, Inhabited

/-- The head of a function definition. -/
structure FunctionHead where
  name : String
  params : Params
  keywordDefaults : List Expr
  defaults : List Expr
  decorators : List Expr
deriving Inhabited

/-- A statement. A definition that is decorated begins, as a statement, at its own keyword; its
    decorators begin at another token. -/
inductive Stmt
  | expr (extent : Extent) (value : Expr)
  | pass (extent : Extent)
  | assign (extent : Extent) (targets : List Expr) (value : Expr)
  | ret (extent : Extent) (value : Option Expr)
  | function (extent : Extent) (decorated : Nat) (head : FunctionHead) (body : List Stmt)
  | classDef (extent : Extent) (name : String) (body : List Stmt)
  | other (extent : Extent)
deriving Inhabited

namespace Stmt

def extent : Stmt → Extent
  | expr extent _ => extent
  | pass extent => extent
  | assign extent _ _ => extent
  | ret extent _ => extent
  | function extent _ _ _ => extent
  | classDef extent _ _ => extent
  | other extent => extent

end Stmt

end TableAudit
