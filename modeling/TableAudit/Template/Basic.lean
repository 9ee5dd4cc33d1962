import TableAudit.Value.Truth

namespace TableAudit.Template

/-- The values that a template draws on: a list to be used up in order, or one value by itself.
    A dictionary can also be asked by name. -/
inductive Supply
  | items (rest : List Value)
  | single (rest : Option Value)

/-- The source of values of a template, and the dictionary to ask by name. -/
structure Values where
  supply : Supply
  dict : Option (List (Value × Value))

def Values.ofList (items : List Value) : Values :=
  ⟨.items items, none⟩

def Values.ofDict (entries : List (Value × Value)) : Values :=
  ⟨.single (some (.dict entries)), some entries⟩

def Values.ofValue (value : Value) : Values :=
  ⟨.single (some value), none⟩

/-- What tells templates of text from templates of bytes. -/
inductive Flavour
  | text
  | bytes
deriving DecidableEq

def tooFew : Raised :=
  .of .typeError "not enough arguments for format string"

def tooMany : Flavour → Raised
  | .text => .of .typeError "not all arguments converted during string formatting"
  | .bytes => .of .typeError "not all arguments converted during bytes formatting"

def incomplete : Raised :=
  .of .valueError "incomplete format"

/-- Takes the next value. -/
def Values.next (values : Values) : Except Raised (Value × Values) :=
  match values.supply with
  | .items (value :: rest) => .ok (value, { values with supply := .items rest })
  | .single (some value) => .ok (value, { values with supply := .single none })
  | _ => .error tooFew

/-- Whether a value is left that nothing used. -/
def Values.unused (values : Values) : Bool :=
  values.dict.isNone &&
    match values.supply with
    | .items rest => !rest.isEmpty
    | .single rest => rest.isSome

/-- The marks in front of a width. -/
structure Marks where
  left : Bool
  plus : Bool
  blank : Bool
  alternate : Bool
  zero : Bool

def Marks.none : Marks :=
  ⟨false, false, false, false, false⟩

/-- The marks with one more; nothing for a character that is no mark. -/
def Marks.with? (marks : Marks) (c : Char) : Option Marks :=
  match c with
  | '-' => some { marks with left := true }
  | '+' => some { marks with plus := true }
  | ' ' => some { marks with blank := true }
  | '#' => some { marks with alternate := true }
  | '0' => some { marks with zero := true }
  | _ => Option.none

def readMarks : Marks → List Char → Marks × List Char
  | marks, [] => (marks, [])
  | marks, c :: rest =>
    match marks.with? c with
    | some more => readMarks more rest
    | Option.none => (marks, c :: rest)

/-- A place of a template. -/
structure Place where
  marks : Marks
  width : Nat
  precision : Option Nat
  letter : Char

/-- The name between the outer brackets, and the rest of the text. -/
def readKey : Nat → List Char → Option (List Char × List Char)
  | _, [] => none
  | depth, c :: rest =>
    if c == ')' then
      match depth with
      | 0 => some ([], rest)
      | depth + 1 => (readKey depth rest).map fun (key, tail) => (c :: key, tail)
    else
      let deeper := if c == '(' then depth + 1 else depth
      (readKey deeper rest).map fun (key, tail) => (c :: key, tail)

/-- The value that a name stands for becomes the only value. -/
def Values.named (values : Values) (key : String) : Except Raised Values :=
  match values.dict with
  | none => .error (.of .typeError "format requires a mapping")
  | some entries =>
    match Value.lookup entries (.text key) with
    | some value => .ok { values with supply := .single (some value) }
    | none => .error ⟨.keyError, [.text key]⟩

/-- A number in a place: digits, or a star that takes the number from the values. -/
def readSize (values : Values) (text : List Char) :
    Except Raised (Option Int × Values × List Char) :=
  match text with
  | '*' :: rest => do
    let (value, values) ← values.next
    match value with
    | .int n => return (some n, values, rest)
    | .bool b => return (some (if b then 1 else 0), values, rest)
    | _ => throw (.of .typeError "* wants int")
  | _ =>
    let digits := text.takeWhile Char.isDigit
    let rest := text.dropWhile Char.isDigit
    if digits.isEmpty then .ok (none, values, rest)
    else .ok (some (digits.foldl (fun n c => n * 10 + (c.toNat - 48)) 0 : Nat), values, rest)

/-- A letter that only says how wide a number is in memory means nothing. -/
def skipLength : List Char → List Char
  | c :: rest => if c == 'h' || c == 'l' || c == 'L' then rest else c :: rest
  | [] => []

/-- Reads a place, after its percent sign. -/
def readPlace (values : Values) (text : List Char) :
    Except Raised (Place × Values × List Char) := do
  let (values, text) ←
    match text with
    | '(' :: rest =>
      if values.dict.isNone then throw (.of .typeError "format requires a mapping")
      match readKey 0 rest with
      | some (key, tail) => pure (← values.named (String.ofList key), tail)
      | none => throw (.of .valueError "incomplete format key")
    | _ => pure (values, text)
  let (marks, text) := readMarks Marks.none text
  let (width, values, text) ← readSize values text
  let marks := if width.getD 0 < 0 then { marks with left := true } else marks
  let (precision, values, text) ←
    match text with
    | '.' :: rest => do
      let (size, values, tail) ← readSize values rest
      pure (some (size.getD 0).toNat, values, tail)
    | _ => pure (none, values, text)
  match skipLength text with
  | [] => throw incomplete
  | letter :: rest => return (⟨marks, (width.getD 0).natAbs, precision, letter⟩, values, rest)

end TableAudit.Template
