import TableAudit.Decimal.Binary
import TableAudit.Value.Raised

namespace TableAudit

inductive Number
  | int (value : Int)
  | float (value : Float)

namespace Number

/-- The number a value counts as. -/
def ofValue? : Value → Option Number
  | .bool b => some (.int (if b then 1 else 0))
  | .int i => some (.int i)
  | .float x => some (.float x)
  | _ => none

def toValue : Number → Value
  | int i => .int i
  | float x => .float x

/-- A number on the extended line: a quotient, an infinity, or no place at all. -/
inductive Place
  | nowhere
  | infinite (negative : Bool)
  | at (num : Int) (den : Nat)

def place : Number → Place
  | int i => .at i 1
  | float x =>
    match Decimal.Binary.ofFloat x with
    | .nan => .nowhere
    | .infinite negative => .infinite negative
    | .finite negative size =>
      let num : Int := (size.num : Nat)
      .at (if negative then -num else num) size.den

/-- The exact order of two numbers; none with a NaN. -/
def compare? (a b : Number) : Option Ordering :=
  match a.place, b.place with
  | .nowhere, _ => none
  | _, .nowhere => none
  | .infinite p, .infinite q => some (if p == q then .eq else if p then .lt else .gt)
  | .infinite p, .at .. => some (if p then .lt else .gt)
  | .at .., .infinite q => some (if q then .gt else .lt)
  | .at n d, .at m e => some (compare (n * (e : Int)) (m * (d : Int)))

def equals (a b : Number) : Bool :=
  a.compare? b == some .eq

def isZero (a : Number) : Bool :=
  a.equals (int 0)

/-- The float nearest to a number; a whole number beyond the range of floats has none. -/
def toFloat (a : Number) : Except Raised Float :=
  match a with
  | float x => .ok x
  | int i =>
    let x := Decimal.floatOfInt i
    if x.isInf then .error (.of .overflowError "int too large to convert to float") else .ok x

/-- The sum: exact among whole numbers, rounded where a float takes part. -/
def add (a b : Number) : Except Raised Number :=
  match a, b with
  | int i, int j => .ok (int (i + j))
  | _, _ => do
    let x ← a.toFloat
    let y ← b.toFloat
    return float (x + y)

/-- The remainder of a division by two, with the sign of the divisor. -/
def modTwo (a : Number) : Number :=
  match a with
  | int i => int (i % 2)
  | float x =>
    match Decimal.Binary.ofFloat x with
    | .finite negative size =>
      let rest := Decimal.floatOfQuotient negative (size.num % (2 * size.den)) size.den
      if rest == 0.0 then float 0.0 else if negative then float (rest + 2.0) else float rest
    | _ => float (0.0 / 0.0)

def abs (a : Number) : Number :=
  match a with
  | int i => int i.natAbs
  | float x => float x.abs

/-- The whole part of a number. -/
def truncate (a : Number) : Except Raised Int :=
  match a with
  | int i => .ok i
  | float x =>
    match Decimal.Binary.ofFloat x with
    | .nan => .error (.of .valueError "cannot convert float NaN to integer")
    | .infinite _ => .error (.of .overflowError "cannot convert float infinity to integer")
    | size => .ok (size.truncate.getD 0)

end Number

end TableAudit
