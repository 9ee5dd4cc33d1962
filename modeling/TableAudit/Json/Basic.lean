import TableAudit.Text.Quoted

namespace TableAudit

/-- A document. A number is kept as it is written. -/
inductive Json
  | null
  | truth (value : Bool)
  | number (numeral : String)
  | text (value : String)
  | array (items : List Json)
  | object (members : List (String × Json))
deriving Inhabited

namespace Json

/-- The letter that stands for a character after a backslash. -/
def shortEscape? (c : Char) : Option Char :=
  if c == '"' || c == '\\' then some c
  else if c == '\n' then some 'n'
  else if c == '\r' then some 'r'
  else if c == '\t' then some 't'
  else if c == '\x08' then some 'b'
  else if c == '\x0c' then some 'f'
  else none

/-- One character of a text. -/
def escape (c : Char) : List Char :=
  match shortEscape? c with
  | some letter => ['\\', letter]
  | none => if c.toNat < 32 then '\\' :: 'u' :: Text.Quoted.hexDigits 4 c.toNat else [c]

/-- A text between quotes. -/
def quote (text : String) : List Char :=
  '"' :: text.toList.flatMap escape ++ ['"']

/-- Items with a comma and a blank between them. -/
def separated : List (List Char) → List Char
  | [] => []
  | [item] => item
  | item :: rest => item ++ ',' :: ' ' :: separated rest

mutual

/-- The text of a document. -/
def write : Json → List Char
  | null => "null".toList
  | truth value => if value then "true".toList else "false".toList
  | number numeral => numeral.toList
  | text value => quote value
  | array items => '[' :: separated (writeItems items) ++ [']']
  | object members => '{' :: separated (writeMembers members) ++ ['}']

def writeItems : List Json → List (List Char)
  | [] => []
  | item :: rest => write item :: writeItems rest

def writeMembers : List (String × Json) → List (List Char)
  | [] => []
  | (name, value) :: rest => (quote name ++ ':' :: ' ' :: write value) :: writeMembers rest

end

def render (document : Json) : String :=
  String.ofList document.write

end Json

end TableAudit
