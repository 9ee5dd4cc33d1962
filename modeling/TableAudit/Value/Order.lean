import TableAudit.Text.CodePoint
import TableAudit.Value.Equality

namespace TableAudit

/-- The four comparisons of order. -/
inductive Comparison
  | less | lessEqual | greater | greaterEqual
deriving DecidableEq, Repr

namespace Comparison

def symbol : Comparison → String
  | less => "<"
  | lessEqual => "<="
  | greater => ">"
  | greaterEqual => ">="

def holds : Comparison → Ordering → Bool
  | less, order => order == .lt
  | lessEqual, order => order != .gt
  | greater, order => order == .gt
  | greaterEqual, order => order != .lt

end Comparison

/-- The order of two sequences by their first difference, a beginning coming first. -/
def compareLists {α : Type} (order : α → α → Ordering) : List α → List α → Ordering
  | [], [] => .eq
  | [], _ :: _ => .lt
  | _ :: _, [] => .gt
  | a :: as, b :: bs =>
    match order a b with
    | .eq => compareLists order as bs
    | other => other

namespace Value

def unorderedError (op : Comparison) (left right : String) : Raised :=
  .of .typeError
    ("'" ++ op.symbol ++ "' not supported between instances of '" ++ left ++ "' and '" ++
      right ++ "'")

mutual

/-- Whether a comparison holds of two values. -/
def compares (op : Comparison) : Value → Value → Except Raised Bool
  | text a, text b =>
    let order := fun (x y : Char) => compare (Text.codePoint x) (Text.codePoint y)
    .ok (op.holds (compareLists order a.toList b.toList))
  | bytes a, bytes b =>
    .ok (op.holds (compareLists (fun x y => compare x.toNat y.toNat) a b))
  | list as, list bs => comparesItems op as bs
  | tuple as, b =>
    match b.tupleItems? with
    | some bs => comparesItems op as bs
    | none => .error (unorderedError op "tuple" b.typeName)
  | record n p c, b =>
    match b.tupleItems? with
    | some (n' :: rest) =>
      if !equals n n' then compares op n n'
      else
        match rest with
        | p' :: rest =>
          if !equals p p' then compares op p p'
          else
            match rest with
            | c' :: rest =>
              if !equals c c' then compares op c c'
              else .ok (op.holds (if rest.isEmpty then .eq else .lt))
            | [] => .ok (op.holds .gt)
        | [] => .ok (op.holds .gt)
    | some [] => .ok (op.holds .gt)
    | none => .error (unorderedError op "CheckDeclaration" b.typeName)
  | column n, b =>
    match b.tupleItems? with
    | some [] => .ok (op.holds .gt)
    | some (n' :: rest) =>
      if !equals n n' then compares op n n'
      else .ok (op.holds (if rest.isEmpty then .eq else .lt))
    | none => .error (unorderedError op "ColumnRef" b.typeName)
  | set as, set bs =>
    let below := containedIn as bs
    let above := containedIn bs as
    .ok <| match op with
      | .less => below && !above
      | .lessEqual => below
      | .greater => above && !below
      | .greaterEqual => above
  | a, b =>
    match Number.ofValue? a, Number.ofValue? b with
    | some x, some y =>
      match x.compare? y with
      | some order => .ok (op.holds order)
      | none => .ok false
    | _, _ => .error (unorderedError op a.typeName b.typeName)

/-- The first pair of unequal items decides, and with no such pair the lengths. -/
def comparesItems (op : Comparison) : List Value → List Value → Except Raised Bool
  | [], bs => .ok (op.holds (if bs.isEmpty then .eq else .lt))
  | _ :: _, [] => .ok (op.holds .gt)
  | a :: as, b :: bs => if equals a b then comparesItems op as bs else compares op a b

end

end Value

end TableAudit
