import TableAudit.Decimal.Power
import TableAudit.Decimal.Rounding

namespace TableAudit.Decimal

/-- A number of the form `mantissa · 2 ^ exponent`. -/
structure Dyadic where
  mantissa : Nat
  exponent : Int
deriving DecidableEq, Repr

/-- The number as a quotient of natural numbers. -/
def Dyadic.num (x : Dyadic) : Nat :=
  x.mantissa * pow2 x.exponent.toNat

def Dyadic.den (x : Dyadic) : Nat :=
  pow2 (-x.exponent).toNat

/-- What a float stands for. -/
inductive Binary
  | nan
  | infinite (negative : Bool)
  | finite (negative : Bool) (size : Dyadic)
deriving DecidableEq, Repr

/-- The number a float stands for, read off its sign, exponent and fraction bits. -/
def Binary.ofFloat (x : Float) : Binary :=
  let bits := x.toBits.toNat
  let negative := decide (pow2 63 ≤ bits)
  let biased : Nat := bits / pow2 52 % 2048
  let fraction : Nat := bits % pow2 52
  if biased = 2047 then
    if fraction = 0 then .infinite negative else .nan
  else if biased = 0 then .finite negative ⟨fraction, -1074⟩
  else .finite negative ⟨fraction + pow2 52, (biased : Int) - 1075⟩

/-- The exponent at which a quotient has 53 binary digits before the point, but no less than the
    least exponent of a float. -/
def targetExponent (num den : Nat) : Int :=
  let guess : Int := (num.log2 : Int) - (den.log2 : Int) - 52
  let fits := fun (e : Int) => decide (num * pow2 (-e).toNat < pow2 53 * (den * pow2 e.toNat))
  let exact := if fits (guess - 1) then guess - 1 else if fits guess then guess else guess + 1
  max exact (-1074)

/-- The 53-digit binary fraction nearest to `num / den`, ties to even. -/
def nearest (num den : Nat) : Dyadic :=
  let e := targetExponent num den
  ⟨roundDiv (num * pow2 (-e).toNat) (den * pow2 e.toNat), e⟩

/-- The float of a sign and a binary fraction; infinite beyond the largest exponent. -/
def Binary.pack (negative : Bool) (size : Dyadic) : Float :=
  let sign := if negative then pow2 63 else 0
  let magnitude :=
    if size.mantissa < pow2 52 then size.mantissa
    else (size.exponent + 1075).toNat * pow2 52 + (size.mantissa - pow2 52)
  Float.ofBits (UInt64.ofNat (sign + min magnitude (2047 * pow2 52)))

/-- The float nearest to `± num / den`. -/
def floatOfQuotient (negative : Bool) (num den : Nat) : Float :=
  if num = 0 then Binary.pack negative ⟨0, -1074⟩ else Binary.pack negative (nearest num den)

/-- The float nearest to a whole number. -/
def floatOfInt (n : Int) : Float :=
  floatOfQuotient (n < 0) n.natAbs 1

/-- The whole number nearest to zero from a finite float, dropping its fraction. -/
def Binary.truncate : Binary → Option Int
  | .finite negative size =>
    let whole : Int := (size.num / size.den : Nat)
    some (if negative then -whole else whole)
  | _ => none

end TableAudit.Decimal
