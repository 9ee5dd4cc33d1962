import TableAudit.Decimal.Notation
import TableAudit.Text.Quoted
import TableAudit.Value.Basic

namespace TableAudit

def joinWith (separator : String) : List String → String
  | [] => ""
  | [part] => part
  | part :: rest => part ++ separator ++ joinWith separator rest

/-- Text between two brackets. -/
def bracketed (left right : String) (body : String) : String :=
  left ++ body ++ right

def braced (body : String) : String :=
  bracketed "\x7b" "\x7d" body

/-- A tuple of one item keeps a comma, so that it is not a value in brackets. -/
def tupleText (items : List String) : String :=
  match items with
  | [item] => "(" ++ item ++ ",)"
  | _ => "(" ++ joinWith ", " items ++ ")"

/-- The literal of a function: a class among the built-ins says so. -/
def Callable.literal : Callable → String
  | .library p => "<predicate " ++ p.id ++ ">"
  | .builtin b =>
    if b.isType then "<class '" ++ b.id ++ "'>" else "<built-in function " ++ b.id ++ ">"
  | .defined _ path => "<function " ++ path ++ ">"

namespace Value

mutual

/-- The literal of a value, were there no limit on the digits of its numbers. -/
def literal : Value → String
  | null => "None"
  | bool b => if b then "True" else "False"
  | int i => toString i
  | float x => Decimal.floatText x
  | text s => Text.Quoted.quote s
  | bytes bs => Text.Quoted.quoteBytes bs
  | list items => "[" ++ joinWith ", " (literals items) ++ "]"
  | tuple items => tupleText (literals items)
  | dict entries => braced (joinWith ", " (entryLiterals entries))
  | set [] => "set()"
  | set items => braced (joinWith ", " (literals items))
  | range n => "range(0, " ++ toString n ++ ")"
  | stream _ => "<generator object>"
  | callable target => target.literal
  | record name predicate columns =>
    "CheckDeclaration(name=" ++ literal name ++ ", predicate=" ++ literal predicate ++
      ", columns=" ++ literal columns ++ ")"
  | space fields => "namespace(" ++ joinWith ", " (fieldLiterals fields) ++ ")"
  | column name => "ColumnRef(name=" ++ literal name ++ ")"
  | definedClass _ path _ => "<class '" ++ path ++ "'>"
  | checkSet _ name => "CheckSet(name=" ++ Text.Quoted.quote name ++ ")"
  | unordered => "<ambiguous>"
  | notImplemented => "NotImplemented"
  | ellipsis => "Ellipsis"
  | object _ type => "<" ++ type ++ " object>"

def literals : List Value → List String
  | [] => []
  | item :: rest => literal item :: literals rest

def entryLiterals : List (Value × Value) → List String
  | [] => []
  | (key, value) :: rest => (literal key ++ ": " ++ literal value) :: entryLiterals rest

def fieldLiterals : List (String × Value) → List String
  | [] => []
  | (name, value) :: rest => (name ++ "=" ++ literal value) :: fieldLiterals rest

end

mutual

/-- Whether a value shows a whole number in its literal that has more digits than can be written. -/
def exceedsDigits : Value → Bool
  | int n | range n => Decimal.exceedsDigits n
  | list items | tuple items | set items => anyExceedsDigits items
  | dict entries => anyEntryExceedsDigits entries
  | record name predicate columns =>
    name.exceedsDigits || predicate.exceedsDigits || columns.exceedsDigits
  | space fields => anyFieldExceedsDigits fields
  | column name => name.exceedsDigits
  | _ => false

def anyExceedsDigits : List Value → Bool
  | [] => false
  | item :: rest => item.exceedsDigits || anyExceedsDigits rest

def anyEntryExceedsDigits : List (Value × Value) → Bool
  | [] => false
  | (key, value) :: rest =>
    key.exceedsDigits || value.exceedsDigits || anyEntryExceedsDigits rest

def anyFieldExceedsDigits : List (String × Value) → Bool
  | [] => false
  | (_, value) :: rest => value.exceedsDigits || anyFieldExceedsDigits rest

end

/-- The display of a value: a text shows itself, all else its literal. -/
def display : Value → String
  | text s => s
  | value => value.literal

end Value

end TableAudit
