namespace TableAudit

/-- The predicates of the library. -/
inductive Predicate
  | isPositive | isLessThanTen | isEven | isOdd
  | firstGreaterThanSecond | safeGreater | sumsToZero | equal
  | identity | negate | firstOf | hasTwo
  | isNone | isText | isKnownCurrency | size | boxed | nothing
  | alwaysPasses | alwaysFails | alwaysErrors
  | quotedError | keyError | stopIteration | exits | interrupts
  | ambiguous | counted | trace | trace2 | anon | cafe
deriving DecidableEq, Repr

/-- The functions that every namespace falls back to. -/
inductive Builtin
  | bool | len | callable | str | abs | int | isinstance
deriving DecidableEq, Repr

/-- What can be called: a predicate of the library, a built-in function, or any other function or
    class, known by its number and its path of names, such as one that a module text defines. -/
inductive Callable
  | library (predicate : Predicate)
  | builtin (builtin : Builtin)
  | defined (number : Nat) (path : String)
deriving DecidableEq, Repr

/-- A value. Dictionaries keep the order in which their keys were first put; a stream is known by
    its number and can be read once, so what is left of it is state, not part of the value. -/
inductive Value
  | null
  | bool (value : Bool)
  | int (value : Int)
  | float (value : Float)
  | text (value : String)
  | bytes (value : List UInt8)
  | list (items : List Value)
  | tuple (items : List Value)
  | dict (entries : List (Value × Value))
  | set (items : List Value)
  | range (count : Int)
  | stream (number : Nat)
  | callable (target : Callable)
  | record (name predicate columns : Value)
  | space (fields : List (String × Value))
  | column (name : Value)
  /-- A class that a module text defines, known by its number there. -/
  | definedClass (number : Nat) (path : String) (members : List (String × Value))
  /-- A check set that a module text declares, known by its number there. -/
  | checkSet (number : Nat) (name : String)
  | unordered
  | notImplemented
  | ellipsis
  /-- Any other object that cannot be called and has no items, known by its number. -/
  | object (number : Nat) (type : String)
deriving Inhabited

namespace Predicate

/-- The name by which declarations refer to a predicate. -/
def id : Predicate → String
  | isPositive => "is_positive"
  | isLessThanTen => "is_less_than_ten"
  | isEven => "is_even"
  | isOdd => "is_odd"
  | firstGreaterThanSecond => "first_greater_than_second"
  | safeGreater => "safe_greater"
  | sumsToZero => "sums_to_zero"
  | equal => "equal"
  | identity => "identity"
  | negate => "negate"
  | firstOf => "first_of"
  | hasTwo => "has_two"
  | isNone => "is_none"
  | isText => "is_text"
  | isKnownCurrency => "is_known_currency"
  | size => "size"
  | boxed => "boxed"
  | nothing => "nothing"
  | alwaysPasses => "always_passes"
  | alwaysFails => "always_fails"
  | alwaysErrors => "always_errors"
  | quotedError => "quoted_error"
  | keyError => "key_error"
  | stopIteration => "stop_iteration"
  | exits => "exits"
  | interrupts => "interrupts"
  | ambiguous => "ambiguous"
  | counted => "counted"
  | trace => "trace"
  | trace2 => "trace2"
  | anon => "anon"
  | cafe => "café"

def all : List Predicate :=
  [isPositive, isLessThanTen, isEven, isOdd, firstGreaterThanSecond, safeGreater, sumsToZero,
    equal, identity, negate, firstOf, hasTwo, isNone, isText, isKnownCurrency, size, boxed,
    nothing, alwaysPasses, alwaysFails, alwaysErrors, quotedError, keyError, stopIteration,
    exits, interrupts, ambiguous, counted, trace, trace2, anon, cafe]

def ofId? (name : String) : Option Predicate :=
  all.find? fun p => p.id == name

end Predicate

namespace Builtin

def id : Builtin → String
  | bool => "bool"
  | len => "len"
  | callable => "callable"
  | str => "str"
  | abs => "abs"
  | int => "int"
  | isinstance => "isinstance"

def all : List Builtin :=
  [bool, len, callable, str, abs, int, isinstance]

def ofId? (name : String) : Option Builtin :=
  all.find? fun b => b.id == name

/-- The built-ins that are types of values. -/
def isType : Builtin → Bool
  | bool | str | int => true
  | _ => false

end Builtin

/-- The name of a function itself; a predicate without a name of its own has the anonymous one. -/
def Callable.name : Callable → String
  | .library .anon => "<lambda>"
  | .library p => p.id
  | .builtin b => b.id
  | .defined _ path => (path.splitOn ".").getLast?.getD path

/-- The name by which answers refer to a function. -/
def Callable.id : Callable → String
  | .library p => p.id
  | .builtin b => "builtins." ++ b.id
  | .defined _ path => "module." ++ path

namespace Value

/-- What a value is when it is called; a class that is called makes an object of itself. -/
def callable? : Value → Option Callable
  | callable target => some target
  | definedClass number path _ => some (.defined number path)
  | _ => none

def isCallable (value : Value) : Bool :=
  value.callable?.isSome

/-- The name of the type of a value. -/
def typeName : Value → String
  | null => "NoneType"
  | bool _ => "bool"
  | int _ => "int"
  | float _ => "float"
  | text _ => "str"
  | bytes _ => "bytes"
  | list _ => "list"
  | tuple _ => "tuple"
  | dict _ => "dict"
  | set _ => "set"
  | range _ => "range"
  | stream _ => "generator"
  | callable (.library _) => "Pred"
  | callable (.builtin b) => if b.isType then "type" else "builtin_function_or_method"
  | callable (.defined ..) => "function"
  | record .. => "CheckDeclaration"
  | space _ => "SimpleNamespace"
  | column _ => "ColumnRef"
  | definedClass .. => "type"
  | checkSet .. => "CheckSet"
  | unordered => "Ambiguous"
  | notImplemented => "NotImplementedType"
  | ellipsis => "ellipsis"
  | object _ type => type

/-- The items of the values that are tuples, a record and a column reference among them. -/
def tupleItems? : Value → Option (List Value)
  | tuple items => some items
  | record name predicate columns => some [name, predicate, columns]
  | column name => some [name]
  | _ => none

end Value

end TableAudit
