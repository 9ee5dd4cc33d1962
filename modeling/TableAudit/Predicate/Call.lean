import TableAudit.Decimal.Reader
import TableAudit.Template.Fill
import TableAudit.Value.Order
import TableAudit.World.Basic

namespace TableAudit

namespace Predicate

/-- The number of values a predicate takes; none for those that take any. -/
def arity? : Predicate → Option Nat
  | firstOf | hasTwo | trace | trace2 => none
  | firstGreaterThanSecond | safeGreater | equal => some 2
  | sumsToZero => some 3
  | _ => some 1

def wrongArity (p : Predicate) (wanted got : Nat) : Raised :=
  .of .typeError
    (p.id ++ "() takes " ++ toString wanted ++ " argument(s), got " ++ toString got)

end Predicate

namespace Value

def badOperands (symbol : String) (left right : Value) : Raised :=
  .of .typeError
    ("unsupported operand type(s) for " ++ symbol ++ ": '" ++ left.typeName ++ "' and '" ++
      right.typeName ++ "'")

/-- A sequence is only joined to its own kind. -/
def notJoined (kind : String) (other : Value) : Raised :=
  .of .typeError
    ("can only concatenate " ++ kind ++ " (not \"" ++ other.typeName ++ "\") to " ++ kind)

/-- The sum of two values: numbers are added, sequences of one kind joined. -/
def add (left right : Value) : Except Raised Value :=
  match left, right with
  | .text a, .text b => .ok (.text (a ++ b))
  | .text _, other => .error (notJoined "str" other)
  | .list a, .list b => .ok (.list (a ++ b))
  | .list _, other => .error (notJoined "list" other)
  | .bytes a, .bytes b => .ok (.bytes (a ++ b))
  | .bytes _, other => .error (.of .typeError ("can't concat " ++ other.typeName ++ " to bytes"))
  | _, _ =>
    match left.tupleItems?, right.tupleItems? with
    | some a, some b => .ok (.tuple (a ++ b))
    | some _, none => .error (notJoined "tuple" right)
    | _, _ =>
      match Number.ofValue? left, Number.ofValue? right with
      | some a, some b => (a.add b).map Number.toValue
      | _, _ => .error (badOperands "+" left right)

/-- The remainder by two: a text is a template, which two may fill. -/
def modTwo (value : Value) : Except Raised Value :=
  let two : Value := .int 2
  match value with
  | .text s => (Template.fill .text s (.ofValue two)).map .text
  | .bytes octets =>
    let template := String.ofList (octets.map fun byte => Char.ofNat byte.toNat)
    (Template.fill .bytes template (.ofValue two)).map fun s =>
      .bytes (s.toList.map fun c => UInt8.ofNat c.toNat)
  | _ =>
    match Number.ofValue? value with
    | some number => .ok number.modTwo.toValue
    | none => .error (badOperands "%" value two)

def absolute (value : Value) : Except Raised Value :=
  match Number.ofValue? value with
  | some number => .ok number.abs.toValue
  | none => .error (.of .typeError ("bad operand type for abs(): '" ++ value.typeName ++ "'"))

def unreadable (literal : String) : Raised :=
  .of .valueError ("invalid literal for int() with base 10: " ++ literal)

/-- The whole number that a value stands for, texts included. -/
def toInt (value : Value) : Except Raised Value :=
  match value with
  | .text s =>
    match Decimal.int? s with
    | some n => .ok (.int n)
    | none => .error (unreadable (Text.Quoted.quote s))
  | .bytes octets =>
    match Decimal.int? (String.ofList (octets.map fun byte => Char.ofNat byte.toNat)) with
    | some n => .ok (.int n)
    | none => .error (unreadable (Text.Quoted.quoteBytes octets))
  | _ =>
    match Number.ofValue? value with
    | some number => number.truncate.map .int
    | none =>
      .error (.of .typeError
        ("int() argument must be a string, a bytes-like object or a real number, not '" ++
          value.typeName ++ "'"))

end Value

namespace Predicate

/-- The currencies that are known. -/
def currencies : List String :=
  ["USD", "EUR", "GBP"]

def isZero (value : Value) : Value :=
  .bool (Value.equals value (.int 0))

def isPositiveValue (value : Value) : Except Raised Value :=
  (Value.compares .greater value (.int 0)).map .bool

/-- The outcome of a predicate that leaves nothing behind. -/
def outcome (p : Predicate) (args : List Value) : Except Raised Value :=
  match p, args with
  | isPositive, [x] | anon, [x] | cafe, [x] => isPositiveValue x
  | isLessThanTen, [x] => (Value.compares .less x (.int 10)).map .bool
  | isEven, [x] => x.modTwo.map fun rest => .bool (Value.equals rest (.int 0))
  | isOdd, [x] => x.modTwo.map fun rest => .bool (Value.equals rest (.int 1))
  | firstGreaterThanSecond, [x, y] => (Value.compares .greater x y).map .bool
  | safeGreater, [.null, _] | safeGreater, [_, .null] => .ok (.bool false)
  | safeGreater, [x, y] => (Value.compares .greater x y).map .bool
  | sumsToZero, [x, y, z] => do
    let sum ← x.add y
    let sum ← sum.add z
    return isZero sum
  | equal, [x, y] => .ok (.bool (Value.equals x y))
  | identity, [x] => .ok x
  | negate, [x] => x.truth.map fun b => .bool !b
  | firstOf, x :: _ => .ok x
  | firstOf, [] => .error (.of .indexError "tuple index out of range")
  | hasTwo, args => .ok (.bool (args.length == 2))
  | isNone, [.null] => .ok (.bool true)
  | isNone, [_] => .ok (.bool false)
  | isText, [.text _] => .ok (.bool true)
  | isText, [_] => .ok (.bool false)
  | isKnownCurrency, [.text s] => .ok (.bool (currencies.contains s))
  | isKnownCurrency, [_] => .ok (.bool false)
  | size, [x] => x.length.map fun n => .int n
  | boxed, [x] => .ok (.list [x])
  | nothing, [_] => .ok .null
  | alwaysPasses, [_] => .ok (.bool true)
  | alwaysFails, [_] => .ok (.bool false)
  | alwaysErrors, [_] => .error (.of .valueError "test error")
  | quotedError, [_] => .error (.of .runtimeError "it's \"bad\"\n")
  | keyError, [_] => .error (.of .keyError "k")
  | stopIteration, [_] => .error (.of .stopIteration "done")
  | exits, [_] => .error (.of .systemExit "stop")
  | interrupts, [_] => .error (.of .keyboardInterrupt "ctrl-c")
  | ambiguous, [_] => .ok .unordered
  | trace, _ | trace2, _ => .ok (.bool true)
  | p, args => .error (p.wrongArity (p.arity?.getD 0) args.length)

/-- What a call of a predicate returns, and what it leaves behind: one counts its calls and fails
    every third, two keep what they were given. -/
def call (p : Predicate) (args : List Value) : Act Value := fun world =>
  match p with
  | counted =>
    match args with
    | [_] =>
      let calls := world.calls + 1
      (.ok (.bool (calls % 3 != 0)), { world with calls := calls })
    | _ => (.error (p.wrongArity 1 args.length), world)
  | trace | trace2 => (p.outcome args, { world with traced := (p, args) :: world.traced })
  | _ => (p.outcome args, world)

end Predicate

namespace Builtin

def wrongCount (b : Builtin) (got : Nat) : Raised :=
  if b.isType then
    .of .typeError (b.id ++ " expected at most 1 argument, got " ++ toString got)
  else
    .of .typeError (b.id ++ "() takes exactly one argument (" ++ toString got ++ " given)")

/-- What a call of a built-in function returns. -/
def outcome (b : Builtin) (args : List Value) : Except Raised Value :=
  match b, args with
  | bool, [x] => x.truth.map .bool
  | bool, [] => .ok (.bool false)
  | len, [x] => x.length.map fun n => .int n
  | callable, [x] => .ok (.bool x.isCallable)
  | str, [.text s] => .ok (.text s)
  | str, [x] => x.print.map .text
  | str, [] => .ok (.text "")
  | abs, [x] => x.absolute
  | int, [x] => x.toInt
  | int, [] => .ok (.int 0)
  | int, [_, _] =>
    .error (.of .typeError "int() can't convert non-string with explicit base")
  | isinstance, args =>
    .error (.of .typeError ("isinstance expected 2 arguments, got " ++ toString args.length))
  | b, args => .error (b.wrongCount args.length)

end Builtin

/-- What a call returns. -/
def Callable.call (target : Callable) (args : List Value) : Act Value :=
  match target with
  | .library p => p.call args
  | .builtin b => fun world => (b.outcome args, world)
  | .defined _ _ => fun world => (.ok .null, world)

/-- Whether the outcome of a call counts as true. An error of the call, or of the question, is
    raised. -/
def Callable.evaluate (target : Callable) (args : List Value) : Act Bool := fun world =>
  let (result, world) := target.call args world
  (result.bind Value.truth, world)

end TableAudit
