import TableAudit.Value.Raised

namespace TableAudit

/-- What declarations rely on that none of them defines. -/
structure Language where
  /-- The value of a name that every scope falls back to. -/
  builtin? : String → Option Value
  /-- The member of a value, or the text of the error if it has none. -/
  member : Value → String → Except String Value
  /-- The character of a name. -/
  named? : String → Option Char
  /-- The text by which errors show a value. -/
  print : Value → Except Raised String
  /-- Whether something that can be called bears the name of an anonymous function. -/
  isAnonymous : Callable → Except Raised Bool

namespace Value

/-- The member of a value. -/
def member? : Value → String → Option Value
  | space fields, attr => (fields.reverse.find? fun field => field.1 == attr).map Prod.snd
  | record name predicate columns, attr =>
    if attr = "name" then some name
    else if attr = "predicate" then some predicate
    else if attr = "columns" then some columns
    else none
  | column name, attr => if attr = "name" then some name else none
  | definedClass _ _ members, attr =>
    (members.reverse.find? fun member => member.1 == attr).map Prod.snd
  | checkSet _ name, attr => if attr = "name" then some (text name) else none
  | _, _ => none

/-- How an error names the owner of a missing member. -/
def ownerText : Value → String
  | callable (.builtin b) =>
    if b.isType then "type object '" ++ b.id ++ "'"
    else "'builtin_function_or_method' object"
  | definedClass _ path _ => "type object '" ++ path ++ "'"
  | space _ => "'types.SimpleNamespace' object"
  | value => "'" ++ value.typeName ++ "' object"

def lacks (owner : Value) (attr : String) : String :=
  owner.ownerText ++ " has no attribute '" ++ attr ++ "'"

end Value

namespace Language

/-- A language of the least extent: no more names and members than those of the values that are
    described in full, and no names of characters. -/
def standard : Language where
  builtin? id :=
    if id = "NotImplemented" then some .notImplemented
    else if id = "Ellipsis" then some .ellipsis
    else (Builtin.ofId? id).map fun b => .callable (.builtin b)
  member value attr :=
    match value.member? attr with
    | some member => .ok member
    | none => .error (value.lacks attr)
  named? _ := none
  print := Value.print
  isAnonymous target := .ok (target.name == "<lambda>")

end Language

end TableAudit
