import TableAudit.Json.Basic
import TableAudit.Value.Raised

namespace TableAudit.Value

/-- Infinities and NaN have words of their own. -/
def documentNotation : Decimal.Notation :=
  { Decimal.plainNotation with nan := "NaN", infinity := "Infinity" }

def numeral (x : Float) : String :=
  documentNotation.write x

def badKey (key : Value) : Raised :=
  .of .typeError ("keys must be str, int, float, bool or None, not " ++ key.typeName)

/-- The name that a key becomes. -/
def memberName (key : Value) : Except Raised String :=
  match key with
  | text s => .ok s
  | null => .ok "null"
  | bool b => .ok (if b then "true" else "false")
  | int n => .ok (toString n)
  | float x => .ok (numeral x)
  | _ => .error (badKey key)

mutual

/-- The document of a value. -/
def document : Value → Except Raised Json
  | null => .ok .null
  | bool b => .ok (.truth b)
  | int n => .ok (.number (toString n))
  | float x => .ok (.number (numeral x))
  | text s => .ok (.text s)
  | list items => (documents items).map .array
  | tuple items => (documents items).map .array
  | record name predicate columns => do
    let name ← document name
    let predicate ← document predicate
    let columns ← document columns
    return .array [name, predicate, columns]
  | column name => do return .array [← document name]
  | dict entries => (members entries).map .object
  | value => .ok (.text value.display)

def documents : List Value → Except Raised (List Json)
  | [] => .ok []
  | item :: rest => do
    let first ← document item
    let others ← documents rest
    return first :: others

def members : List (Value × Value) → Except Raised (List (String × Json))
  | [] => .ok []
  | (key, value) :: rest => do
    let name ← memberName key
    let value ← document value
    let others ← members rest
    return (name, value) :: others

end

end TableAudit.Value
