import TableAudit.Value.Raised

namespace TableAudit.Value

mutual

/-- The name of the type that keeps a value from being a key. -/
def changeable? : Value → Option String
  | list _ => some "list"
  | dict _ => some "dict"
  | set _ => some "set"
  | space _ => some "types.SimpleNamespace"
  | tuple items => anyChangeable? items
  | record name predicate columns =>
    (changeable? name).or ((changeable? predicate).or (changeable? columns))
  | column name => changeable? name
  | _ => none

def anyChangeable? : List Value → Option String
  | [] => none
  | item :: rest => (changeable? item).or (anyChangeable? rest)

end

def notHashable (typeName : String) : Raised :=
  .of .typeError ("unhashable type: '" ++ typeName ++ "'")

/-- The value as a key. -/
def asKey (value : Value) : Except Raised Value :=
  match value.changeable? with
  | some typeName => .error (notHashable typeName)
  | none => .ok value

end TableAudit.Value
