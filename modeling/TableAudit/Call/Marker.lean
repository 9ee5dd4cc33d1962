import TableAudit.Call.Signature

namespace TableAudit

inductive Marker
  | column
  | check
deriving DecidableEq, Repr

namespace Marker

def word : Marker → String
  | column => "col"
  | check => "check"

def params : Marker → List String
  | column => ["name"]
  | check => ["name", "invocation"]

def signature (marker : Marker) : Signature :=
  { title := marker.word, params := .ofNames marker.params }

def calledError (name : Value) : Raised :=
  .of .runtimeError
    ("check(" ++ name.literal ++ ", ...) is a declaration: use it inside a block compiled by " ++
      "checkset() or compile_checkset()")

/-- What a call of a word returns. -/
def call (marker : Marker) (args : List Value) (named : List (String × Value)) :
    Except Raised Value := do
  let values ← marker.signature.bind args named
  let name := ((values.find? fun entry => entry.1 == "name").map Prod.snd).getD .null
  match marker with
  | column => return .column name
  | check => throw (calledError name)

end Marker

end TableAudit
