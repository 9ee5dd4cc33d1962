import TableAudit.Check.Scope
import TableAudit.Labelled
import TableAudit.Predicate.Call
import TableAudit.Value.Hashing

namespace TableAudit

/-- A column of a frame: what it gives as a list by either of two names, if it can, and what going
    through it gives. -/
structure FrameColumn where
  label : Value
  listed : Option Value
  relisted : Option Value
  iterated : Value

/-- A table that serves its columns. It may fail to name them, or to serve one of them. -/
structure Table where
  number : Nat
  columns : List (Value × Value)
  /-- What it answers when asked for the names, if not the names of its columns. -/
  names : Option Value
  namesFail : Bool
  failing : Option String

inductive Data
  | mapping (columns : List (Value × Value))
  | table (table : Table)
  | frame (columns : List FrameColumn)
  | hybrid
  | raw (value : Value)

/-- What stands behind the labels of a frame: columns, or the items of a tuple. -/
inductive Frame
  | columns (columns : List FrameColumn)
  | items (items : List Value)

/-- What can be read by column name. -/
inductive Source
  | mapping (columns : List (Value × Value))
  | table (table : Table)
  | hybrid
  | frame (labels : Labelled Value) (frame : Frame)
  | space (names get : Value)

namespace Source

/-- The name of the kind of a source. -/
def className : Source → String
  | mapping _ => "MappingColumnSource"
  | table _ => "Table"
  | hybrid => "MappingTable"
  | frame _ _ => "FrameColumnSource"
  | space _ _ => "SimpleNamespace"

/-- Whether data that serves its columns itself stands behind a source. -/
def isData : Source → Bool
  | table _ | hybrid | space _ _ => true
  | mapping _ | frame _ _ => false

def unsupported (typeName : String) : Raised :=
  .of .typeError
    ("Unsupported data source type " ++ typeName ++
      ": expected a mapping of column name to values, a dataframe-like object, or a ColumnSource")

/-- Labels under their texts; of two with one text the later counts. -/
def labelsOf (labels : List Value) : Labelled Value :=
  Labelled.ofList (labels.map fun label => (label.display, label))

/-- The two members that make a value serve columns, if it has both. -/
def servingMembers? (value : Value) : Option (Value × Value) :=
  match value.member? "column_names", value.member? "get_column" with
  | some .null, _ | _, some .null => none
  | some names, some get => some (names, get)
  | _, _ => none

/-- Adapts data to be read by column name. -/
def ofData (data : Data) : Act Source := fun world =>
  match data with
  | .mapping columns => (.ok (mapping columns), world)
  | .table t => (.ok (table t), world)
  | .hybrid => (.ok hybrid, world)
  | .frame columns =>
    (.ok (frame (labelsOf (columns.map FrameColumn.label)) (.columns columns)), world)
  | .raw (.dict entries) => (.ok (mapping entries), world)
  | .raw (.record name predicate columns) =>
    let (labels, world) := columns.collect world
    (labels.map fun labels => frame (labelsOf labels) (.items [name, predicate, columns]), world)
  | .raw value =>
    match value, servingMembers? value with
    | .space _, some (names, get) => (.ok (space names get), world)
    | _, _ => (.error (unsupported value.typeName), world)

def callValue (function : Value) (args : List Value) : Act Value := fun world =>
  match function with
  | .callable target => target.call args world
  | _ => (.error function.notCallable, world)

/-- What a source answers when asked for the names of its columns. -/
def columnNames (source : Source) : Act Value := fun world =>
  match source with
  | mapping columns => (.ok (.list (columns.map Prod.fst)), world)
  | table t =>
    if t.namesFail then (.error (.of .osError "names gone"), world)
    else (.ok (t.names.getD (.list (t.columns.map Prod.fst))), world)
  | hybrid => (.ok (.list [.text "only"]), world)
  | frame labels _ => (.ok (.list (labels.labels.map .text)), world)
  | space names _ => callValue names [] world

/-- The names of the columns, one by one. -/
def listNames (source : Source) : Act (List Value) := fun world =>
  match source.columnNames world with
  | (.ok names, world) => names.collect world
  | (.error error, world) => (.error error, world)

/-- The set of the names: each of them must be able to be a member. -/
def available (source : Source) : Act (List Value) := fun world =>
  let (names, world) := source.listNames world
  (names.bind fun names => names.mapM Value.asKey, world)

def lookupColumn (columns : List (Value × Value)) (name : Value) : Except Raised Value := do
  let name ← name.asKey
  match Value.lookup columns name with
  | some column => return column
  | none => throw ⟨.keyError, [name]⟩

/-- Whether a column can be read by position again and again as it is. -/
def isSequence : Value → Bool
  | .list _ | .tuple _ | .range _ | .record .. | .column _ => true
  | _ => false

/-- The column as a list, unless it is a sequence. -/
def materialize (column : Value) : Act Value := fun world =>
  if isSequence column then (.ok column, world)
  else
    let (items, world) := column.collect world
    (items.map .list, world)

/-- Whether a column of a frame stands under a label. A label that does not equal itself is found all
    the same, as the label that it is. -/
def FrameColumn.standsUnder (column : FrameColumn) (label : Value) : Bool :=
  Value.equals column.label label ||
    !Value.equals label label && column.label.display == label.display

def frameItem (frame : Frame) (label : Value) : Except Raised (Value ⊕ FrameColumn) :=
  match frame with
  | .columns columns => do
    let label ← label.asKey
    match columns.reverse.find? fun column => FrameColumn.standsUnder column label with
    | some column => return .inr column
    | none => throw ⟨.keyError, [label]⟩
  | .items items =>
    let place := fun (n : Int) =>
      let index := if n < 0 then n + items.length else n
      if index < 0 then none else items[index.toNat]?
    let outside := Raised.of .indexError "tuple index out of range"
    match label with
    | .int n => (place n).elim (.error outside) fun item => .ok (.inl item)
    | .bool b => (place (if b then 1 else 0)).elim (.error outside) fun item => .ok (.inl item)
    | _ =>
      .error (.of .typeError
        ("tuple indices must be integers or slices, not " ++ label.typeName))

/-- The values of a column of a frame, as a list if it gives one. -/
def FrameColumn.contents (column : FrameColumn) : Value :=
  (column.listed.or column.relisted).getD column.iterated

/-- The value that the label of a name leads to, or the name itself. -/
def labelFor (labels : Labelled Value) (name : Value) : Except Raised Value := do
  match ← name.asKey with
  | .text text => return (labels.get? text).getD name
  | name => return name

/-- One column of a source. Tables note each column that is asked for. -/
def column (source : Source) (name : Value) : Act Value := fun world =>
  match source with
  | mapping columns =>
    match lookupColumn columns name with
    | .ok column => materialize column world
    | .error error => (.error error, world)
  | table t =>
    let world := { world with fetched := (t.number, name) :: world.fetched }
    match t.failing, name with
    | some failing, .text text =>
      if failing == text then (.error (.of .osError "disk gone"), world)
      else (lookupColumn t.columns name, world)
    | _, _ => (lookupColumn t.columns name, world)
  | hybrid => (.ok (.list [.int 1, .int (-1)]), world)
  | frame labels body =>
    match (labelFor labels name).bind (frameItem body) with
    | .ok (.inl value) =>
      let (items, world) := value.collect world
      (items.map .list, world)
    | .ok (.inr column) =>
      let (items, world) := (FrameColumn.contents column).collect world
      (items.map .list, world)
    | .error error => (.error error, world)
  | space _ get => callValue get [name] world

end Source

end TableAudit
