import TableAudit.Value.Number

namespace TableAudit.Value

/-- The number of rows that a range counts. -/
def rangeSize (n : Int) : Nat :=
  n.toNat

mutual

def equals : Value → Value → Bool
  | bool a, b =>
    match Number.ofValue? b with
    | some number => (Number.int (if a then 1 else 0)).equals number
    | none => false
  | int a, b =>
    match Number.ofValue? b with
    | some number => (Number.int a).equals number
    | none => false
  | float a, b =>
    match Number.ofValue? b with
    | some number => (Number.float a).equals number
    | none => false
  | null, null => true
  | text a, text b => a == b
  | bytes a, bytes b => a == b
  | list as, list bs => equalItems as bs
  | tuple as, b =>
    match b.tupleItems? with
    | some bs => equalItems as bs
    | none => false
  | record n p c, b =>
    match b.tupleItems? with
    | some [n', p', c'] => equals n n' && equals p p' && equals c c'
    | _ => false
  | column n, b =>
    match b.tupleItems? with
    | some [n'] => equals n n'
    | _ => false
  | dict as, dict bs => as.length == bs.length && equalEntries as bs
  | set as, set bs => as.length == bs.length && containedIn as bs
  | range a, range b => rangeSize a == rangeSize b
  | stream a, stream b => a == b
  | callable a, callable b => a == b
  | space as, space bs => as.length == bs.length && equalFields as bs
  | notImplemented, notImplemented => true
  | ellipsis, ellipsis => true
  | _, _ => false

def equalItems : List Value → List Value → Bool
  | [], [] => true
  | a :: as, b :: bs => equals a b && equalItems as bs
  | _, _ => false

/-- Every entry of the first dictionary stands in the second. -/
def equalEntries : List (Value × Value) → List (Value × Value) → Bool
  | [], _ => true
  | (key, value) :: rest, others =>
    (others.any fun other => equals key other.1 && equals value other.2) &&
      equalEntries rest others

def containedIn : List Value → List Value → Bool
  | [], _ => true
  | a :: as, others => (others.any fun other => equals a other) && containedIn as others

def equalFields : List (String × Value) → List (String × Value) → Bool
  | [], _ => true
  | (name, value) :: rest, others =>
    (others.any fun other => name == other.1 && equals value other.2) && equalFields rest others

end

/-- The value that a dictionary holds under a key. -/
def lookup (entries : List (Value × Value)) (key : Value) : Option Value :=
  (entries.find? fun entry => equals entry.1 key).map Prod.snd

/-- Puts a value under a key: an equal key keeps its place and its first spelling. -/
def put (entries : List (Value × Value)) (key value : Value) : List (Value × Value) :=
  if entries.any fun entry => equals entry.1 key then
    entries.map fun entry => if equals entry.1 key then (entry.1, value) else entry
  else entries ++ [(key, value)]

end TableAudit.Value
