import TableAudit.Decimal.Reader
import TableAudit.Field.Issue
import TableAudit.Labelled
import TableAudit.Value.Number
import TableAudit.World.Basic

namespace TableAudit.Field

/-- Fields by name; of two with one name the later counts. -/
abbrev Fields :=
  List (String × Value)

def Fields.get? (fields : Fields) (name : String) : Option Value :=
  (fields.reverse.find? fun field => field.1 == name).map Prod.snd

/-- The text that octets are in UTF-8. -/
def decoded (wrong : IssueKind) (octets : List UInt8) : Except IssueKind String :=
  match String.fromUTF8? ⟨octets.toArray⟩ with
  | some text => .ok text
  | none => .error wrong

/-- The words for truth and falsehood, in lower case. -/
def trueWords : List String :=
  ["1", "on", "t", "true", "y", "yes"]

def falseWords : List String :=
  ["0", "off", "f", "false", "n", "no"]

def boolOfText (text : String) : Except IssueKind Bool :=
  let word := Decimal.lowered text.toList
  if trueWords.contains word then .ok true
  else if falseWords.contains word then .ok false
  else .error .boolParsing

def bool (value : Value) : Except IssueKind Bool :=
  match value with
  | .bool b => .ok b
  | .int n => if n = 0 then .ok false else if n = 1 then .ok true else .error .boolParsing
  | .float x =>
    if (Number.float x).equals (.int 0) then .ok false
    else if (Number.float x).equals (.int 1) then .ok true
    else .error .boolType
  | .text s => boolOfText s
  | .bytes octets => decoded .boolParsing octets >>= boolOfText
  | _ => .error .boolType

/-- The blanks around a number; unlike elsewhere the separators of information are none. -/
def isSpace (c : Char) : Bool :=
  Text.isBlank c && !(28 ≤ c.toNat && c.toNat ≤ 31)

def trim (text : List Char) : List Char :=
  ((text.dropWhile isSpace).reverse.dropWhile isSpace).reverse

/-- A whole number in decimal: digits with single underscores between them, and perhaps a point
    with nothing but zeros after it. -/
def wholeDigits? (text : List Char) : Option Nat :=
  match Decimal.digitRun text with
  | ([], _) => none
  | (digits, []) => some (Decimal.digitsValue digits)
  | (digits, '.' :: zeros) =>
    if zeros.all (· == '0') then some (Decimal.digitsValue digits) else none
  | _ => none

def intOfText (text : String) : Except IssueKind Int :=
  let (negative, body) := Decimal.takeSign (trim text.toList)
  match wholeDigits? body with
  | some n => .ok (if negative then -(n : Int) else n)
  | none => .error .intParsing

def intOfFloat (x : Float) : Except IssueKind Int :=
  match Decimal.Binary.ofFloat x with
  | .finite negative size =>
    if size.num % size.den = 0 then
      let whole : Int := (size.num / size.den : Nat)
      .ok (if negative then -whole else whole)
    else .error .intFromFloat
  | _ => .error .finiteNumber

def int (value : Value) : Except IssueKind Int :=
  match value with
  | .int n => .ok n
  | .bool b => .ok (if b then 1 else 0)
  | .float x => intOfFloat x
  | .text s => intOfText s
  | .bytes octets => decoded .intParsing octets >>= intOfText
  | _ => .error .intType

def floatOfText (text : String) : Except IssueKind Float :=
  match Decimal.float? (String.ofList (trim text.toList)) with
  | some x => .ok x
  | none => .error .floatParsing

def float (value : Value) : Except IssueKind Float :=
  match value with
  | .float x => .ok x
  | .int n => .ok (Decimal.floatOfInt n)
  | .bool b => .ok (if b then 1.0 else 0.0)
  | .text s => floatOfText s
  | .bytes octets => decoded .floatParsing octets >>= floatOfText
  | _ => .error .floatType

def text (value : Value) : Except IssueKind String :=
  match value with
  | .text s => .ok s
  | .bytes octets => decoded .stringUnicode octets
  | _ => .error .stringType

def callable (value : Value) : Except IssueKind Callable :=
  match value.callable? with
  | some target => .ok target
  | none => .error .callableType

/-- The items of a list, a tuple, a set, a range or a stream, which is used up. -/
def sequence (value : Value) : StateM World (Option (List Value)) := fun world =>
  match value with
  | .stream number =>
    let (items, world) := world.drain number
    (some items, world)
  | .list _ | .tuple _ | .set _ | .range _ | .record .. | .column _ => (value.items?, world)
  | _ => (none, world)

/-- What models need of the library that reads their fields: what a value is read as by a field of each
    type, or why it is refused, and the items of a value of many. -/
structure Readers where
  bool : Value → Except IssueKind Bool
  int : Value → Except IssueKind Int
  float : Value → Except IssueKind Float
  text : Value → Except IssueKind String
  callable : Value → Except IssueKind Callable
  sequence : Value → StateM World (Option (List Value))

namespace Readers

/-- The readers of the library as it is. -/
def standard : Readers where
  bool := Field.bool
  int := Field.int
  float := Field.float
  text := Field.text
  callable := Field.callable
  sequence := Field.sequence

/-- What is relied on of the library: values of the type of a field are read as they are, and texts also
    from their octets in UTF-8, and from nothing else. -/
structure Documented (readers : Readers) : Prop where
  bool_bool (b : Bool) : readers.bool (.bool b) = .ok b
  int_int (n : Int) : readers.int (.int n) = .ok n
  text_eq_ok_iff (value : Value) (s : String) :
    readers.text value = .ok s ↔ value = .text s ∨ value = .bytes s.toUTF8.data.toList
  sequence_list (items : List Value) (world : World) :
    readers.sequence (.list items) world = (some items, world)

/-- A whole number that is no less than a bound. -/
def intFrom (readers : Readers) (bound : Int) (value : Value) : Except IssueKind Int := do
  let n ← readers.int value
  if bound ≤ n then return n else throw (.atLeast (toString bound))

/-- A float that is no less than zero; a NaN is not. -/
def floatFromZero (readers : Readers) (value : Value) : Except IssueKind Float := do
  let x ← readers.float value
  match (Number.float x).compare? (.int 0) with
  | some .lt => throw (.atLeast "0")
  | none => throw (.atLeast "0")
  | _ => return x

end Readers

/-- Collects a result, or the issues of all the parts that have some. -/
structure Reading (α : Type) where
  value? : Option α
  issues : List Issue

namespace Reading

def ofExcept {α : Type} (place : List String) (result : Except IssueKind α) : Reading α :=
  match result with
  | .ok value => ⟨some value, []⟩
  | .error kind => ⟨none, [⟨place, kind⟩]⟩

def pure {α : Type} (value : α) : Reading α :=
  ⟨some value, []⟩

/-- A field that must be there. -/
def required {α : Type} (name : String) (read : Value → Except IssueKind α) (fields : Fields) :
    Reading α :=
  match fields.get? name with
  | some value => ofExcept [name] (read value)
  | none => ⟨none, [⟨[name], .missing⟩]⟩

/-- A field that has a value of its own when it is not there. -/
def withDefault {α : Type} (name : String) (default : α) (read : Value → Except IssueKind α)
    (fields : Fields) : Reading α :=
  match fields.get? name with
  | some value => ofExcept [name] (read value)
  | none => pure default

/-- Reads items one by one, each under its number. -/
def itemsFrom {α : Type} (name : String) (read : List String → Value → Reading α) :
    Nat → List Value → Reading (List α)
  | _, [] => pure []
  | index, item :: rest =>
    let first := read [name, toString index] item
    let others := itemsFrom name read (index + 1) rest
    ⟨do return (← first.value?) :: (← others.value?), first.issues ++ others.issues⟩

/-- A field of many items. -/
def sequenceOf {α : Type} (readers : Readers) (name : String) (default : Option (List α))
    (wrong : IssueKind) (read : List String → Value → Reading α) (fields : Fields) :
    StateM World (Reading (List α)) := fun world =>
  match fields.get? name with
  | none =>
    match default with
    | some items => (pure items, world)
    | none => (⟨none, [⟨[name], .missing⟩]⟩, world)
  | some value =>
    match readers.sequence value world with
    | (some items, world) => (itemsFrom name read 0 items, world)
    | (none, world) => (⟨none, [⟨[name], wrong⟩]⟩, world)

/-- An issue for each key of a dictionary that is not read as a text. -/
def keyIssues (readers : Readers) (place : List String) (entries : List (Value × Value)) : List Issue :=
  entries.filterMap fun entry =>
    match readers.text entry.1 with
    | .ok _ => none
    | .error kind => some ⟨place ++ [entry.1.display, "[key]"], kind⟩

/-- The values of a dictionary under the texts that its keys are read as. -/
def named (readers : Readers) (entries : List (Value × Value)) : List (String × Value) :=
  entries.filterMap fun entry => (readers.text entry.1).toOption.map fun label => (label, entry.2)

/-- A dictionary with texts for keys. -/
def labelled (readers : Readers) (place : List String) (value : Value) : Reading (Labelled Value) :=
  match value with
  | .dict entries =>
    match keyIssues readers place entries with
    | [] => pure (Labelled.ofList (named readers entries))
    | issues => ⟨none, issues⟩
  | _ => ⟨none, [⟨place, .dictType⟩]⟩

end Reading

end TableAudit.Field
