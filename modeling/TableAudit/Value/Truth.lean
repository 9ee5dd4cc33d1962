import TableAudit.Value.Equality

namespace TableAudit.Value

/-- Whether a value counts as true: nothing, zero and what is empty do not. A value without an
    order in which to decide raises an error. -/
def truth : Value → Except Raised Bool
  | null => .ok false
  | bool b => .ok b
  | int i => .ok (i != 0)
  | float x => .ok (!(Number.float x).isZero)
  | text s => .ok (!s.isEmpty)
  | bytes bs => .ok (!bs.isEmpty)
  | list items => .ok (!items.isEmpty)
  | tuple items => .ok (!items.isEmpty)
  | dict entries => .ok (!entries.isEmpty)
  | set items => .ok (!items.isEmpty)
  | range n => .ok (rangeSize n != 0)
  | unordered => .error (.of .typeError "ambiguous truth value")
  | _ => .ok true

/-- The number of items of a value that has one. -/
def length? : Value → Option Nat
  | text s => some s.length
  | bytes bs => some bs.length
  | list items => some items.length
  | dict entries => some entries.length
  | set items => some items.length
  | range n => some (rangeSize n)
  | value => value.tupleItems?.map List.length

def length (value : Value) : Except Raised Nat :=
  match value.length? with
  | some n => .ok n
  | none => .error (.of .typeError ("object of type '" ++ value.typeName ++ "' has no len()"))

/-- The items of a sequence by position; a dictionary is asked for the position as a key. -/
def item (value : Value) (index : Nat) : Except Raised Value :=
  let inSequence := fun (name : String) (items : List Value) =>
    match items[index]? with
    | some x => Except.ok x
    | none => .error (.of .indexError (name ++ " index out of range"))
  match value with
  | text s => inSequence "string" (s.toList.map fun c => text (String.singleton c))
  | bytes bs => inSequence "index" (bs.map fun b => int b.toNat)
  | list items => inSequence "list" items
  | range n =>
    if index < rangeSize n then .ok (int index)
    else .error (.of .indexError "range object index out of range")
  | dict entries =>
    match lookup entries (int index) with
    | some x => .ok x
    | none => .error ⟨.keyError, [int index]⟩
  | value =>
    match value.tupleItems? with
    | some items => inSequence "tuple" items
    | none =>
      .error (.of .typeError ("'" ++ value.typeName ++ "' object is not subscriptable"))

/-- The items that a value goes through, a stream apart. -/
def items? : Value → Option (List Value)
  | text s => some (s.toList.map fun c => text (String.singleton c))
  | bytes bs => some (bs.map fun b => int b.toNat)
  | list items => some items
  | dict entries => some (entries.map Prod.fst)
  | set items => some items
  | range n => some ((List.range (rangeSize n)).map fun (k : Nat) => int k)
  | value => value.tupleItems?

def notIterable (value : Value) : Raised :=
  .of .typeError ("'" ++ value.typeName ++ "' object is not iterable")

def notCallable (value : Value) : Raised :=
  .of .typeError ("'" ++ value.typeName ++ "' object is not callable")

end TableAudit.Value
