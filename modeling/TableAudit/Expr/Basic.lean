namespace TableAudit

/-- A literal of the declaration language. A text remembers whether its first piece was marked as
    one with a letter, since the mark is kept when the literal is printed. -/
inductive Literal
  | text (value : String) (marked : Bool)
  | bytes (value : List UInt8)
  | int (value : Nat)
  | float (value : Float)
  | imaginary (value : Float)
  | truth (value : Bool)
  | null
  | ellipsis
deriving Inhabited

inductive BooleanOp
  | and | or
deriving DecidableEq, Repr

inductive UnaryOp
  | not | plus | minus | invert
deriving DecidableEq, Repr

inductive BinaryOp
  | bitOr | bitXor | bitAnd | shiftLeft | shiftRight | add | subtract
  | multiply | matrix | divide | floorDivide | modulo | power
deriving DecidableEq, Repr

inductive CompareOp
  | equal | notEqual | less | lessEqual | greater | greaterEqual
  | is | isNot | isIn | notIn
deriving DecidableEq, Repr

/-- The brackets around a comprehension. -/
inductive Brackets
  | round | square | curly
deriving DecidableEq, Repr

/-- The names of the parameters of a function. Default values stand beside it: one for each
    keyword parameter that has one, and those of the last positional parameters. -/
structure Params where
  slashed : List String
  plain : List String
  star : Option String
  keywords : List (String × Bool)
  doubleStar : Option String
deriving DecidableEq, Repr, Inhabited

/-- An expression, or a part of one: a slice, a starred item, a replacement field of a formatted
    text, a clause of a comprehension. -/
inductive Expr
  | name (id : String)
  | literal (value : Literal)
  /-- A formatted text: literals and replacement fields. -/
  | joined (parts : List Expr)
  /-- A replacement field, with its conversion and its format, a formatted text. -/
  | field (value : Expr) (conversion : Option Char) (format : Option Expr)
  | member (value : Expr) (attr : String)
  | subscript (value index : Expr)
  | slice (lower upper step : Option Expr)
  /-- A call. Each keyword argument has a name or spreads a mapping. -/
  | call (function : Expr) (args : List Expr) (names : List (Option String))
      (values : List Expr)
  | starred (value : Expr)
  | assign (target value : Expr)
  | boolean (op : BooleanOp) (operands : List Expr)
  | unary (op : UnaryOp) (operand : Expr)
  | binary (left : Expr) (op : BinaryOp) (right : Expr)
  | compare (left : Expr) (ops : List CompareOp) (rest : List Expr)
  | lambda (params : Params) (keywordDefaults defaults : List Expr) (body : Expr)
  | conditional (test body otherwise : Expr)
  | tuple (items : List Expr)
  | list (items : List Expr)
  | set (items : List Expr)
  /-- A dictionary. The flags say of each value whether it has a key or is spread. -/
  | dict (keyed : List Bool) (keys values : List Expr)
  | comprehension (brackets : Brackets) (element : Expr) (clauses : List Expr)
  | dictComprehension (key value : Expr) (clauses : List Expr)
  | clause (isAsync : Bool) (target source : Expr) (conditions : List Expr)
  | await (value : Expr)
  | yield (value : Option Expr)
  | yieldFrom (value : Expr)
deriving Inhabited

namespace Expr

/-- The parts of an expression in the order of its fields. It differs from the order of the text
    for a conditional, whose test comes first; for a dictionary, all of whose keys come first; for
    a function, whose keyword defaults come first; and for a comprehension, whose element comes
    before its clauses. -/
def children : Expr → List Expr
  | name _ => []
  | literal _ => []
  | joined parts => parts
  | field value _ format => value :: format.toList
  | member value _ => [value]
  | subscript value index => [value, index]
  | slice lower upper step => lower.toList ++ upper.toList ++ step.toList
  | call function args _ values => function :: args ++ values
  | starred value => [value]
  | assign target value => [target, value]
  | boolean _ operands => operands
  | unary _ operand => [operand]
  | binary left _ right => [left, right]
  | compare left _ rest => left :: rest
  | lambda _ keywordDefaults defaults body => keywordDefaults ++ defaults ++ [body]
  | conditional test body otherwise => [test, body, otherwise]
  | tuple items => items
  | list items => items
  | set items => items
  | dict _ keys values => keys ++ values
  | comprehension _ element clauses => element :: clauses
  | dictComprehension key value clauses => key :: value :: clauses
  | clause _ target source conditions => target :: source :: conditions
  | await value => [value]
  | yield value => value.toList
  | yieldFrom value => [value]

/-- The parts of an expression are smaller than it is. -/
theorem sizeOf_lt_of_mem_children {e part : Expr} (h : part ∈ e.children) :
    sizeOf part < sizeOf e := by
  have of_list (es : List Expr) (h : part ∈ es) : sizeOf part < sizeOf es :=
    List.sizeOf_lt_of_mem h
  have of_option (e : Option Expr) (h : e = some part) : sizeOf part < sizeOf e := by
    subst h; simp
  cases e <;>
    simp only [children, List.mem_cons, List.mem_append, Option.mem_toList, List.not_mem_nil,
      joined.sizeOf_spec, field.sizeOf_spec, member.sizeOf_spec, subscript.sizeOf_spec, slice.sizeOf_spec, call.sizeOf_spec,
      starred.sizeOf_spec, assign.sizeOf_spec, boolean.sizeOf_spec, unary.sizeOf_spec,
      binary.sizeOf_spec, compare.sizeOf_spec, lambda.sizeOf_spec, conditional.sizeOf_spec,
      tuple.sizeOf_spec, list.sizeOf_spec, set.sizeOf_spec, dict.sizeOf_spec,
      comprehension.sizeOf_spec, dictComprehension.sizeOf_spec, clause.sizeOf_spec,
      await.sizeOf_spec, yield.sizeOf_spec, yieldFrom.sizeOf_spec] at h ⊢ <;>
    grind

/-- The text of a text literal. -/
def text? : Expr → Option String
  | literal (.text value _) => some value
  | _ => none

end Expr

end TableAudit
