import TableAudit.Decimal.Binary

namespace TableAudit.Decimal

/-- Decimal digits with a point: `digits` is read as a whole number of `count` digits, and the
    number is that with its point after the first `point` digits. -/
structure Digits where
  digits : Nat
  count : Nat
  point : Int
deriving DecidableEq, Repr

/-- The numbers that read back as a float, as bounds over a common denominator; the bounds
    themselves belong to them where the mantissa is even. -/
structure Interval where
  low : Nat
  value : Nat
  high : Nat
  den : Nat
  closed : Bool

/-- Half the gap to the neighbours on both sides. Below a power of two the gap is half as wide. -/
def Interval.of (x : Dyadic) : Interval :=
  let quarter := pow2 x.exponent.toNat
  let below := if x.mantissa = pow2 52 ∧ -1074 < x.exponent then 1 else 2
  { low := (4 * x.mantissa - below) * quarter
    value := 4 * x.mantissa * quarter
    high := (4 * x.mantissa + 2) * quarter
    den := 4 * pow2 (-x.exponent).toNat
    closed := x.mantissa % 2 = 0 }

/-- Whether the grid point `k · num / den` reads back as the float. -/
def Interval.holds (i : Interval) (k num den : Nat) : Bool :=
  let left := k * num * i.den
  if i.closed then i.low * den ≤ left && left ≤ i.high * den
  else i.low * den < left && left < i.high * den

def digitCount (n : Nat) : Nat :=
  (Nat.repr n).length

/-- The exponent `p` with `10 ^ p ≤ num / den < 10 ^ (p + 1)`, for a positive quotient. -/
def decimalExponent (num den : Nat) : Int :=
  if den ≤ num then (digitCount (num / den) : Int) - 1
  else
    let d := digitCount (den / num)
    if den ≤ num * pow10 (d - 1) then 1 - (d : Int) else -(d : Int)

/-- The nearest of the two grid points around the value that reads back, where the grid is that
    of the decimals of `count` digits. -/
def Interval.onGrid? (i : Interval) (exponent : Int) (count : Nat) : Option Nat :=
  let unit := exponent - (count : Int) + 1
  let num := pow10 unit.toNat
  let den := pow10 (-unit).toNat
  let below := i.value * den / (num * i.den)
  let rest := 2 * (i.value * den % (num * i.den))
  let lower := i.holds below num den
  let upper := i.holds (below + 1) num den
  if lower && upper then
    if rest < num * i.den then some below
    else if num * i.den < rest then some (below + 1)
    else some (if below % 2 = 0 then below else below + 1)
  else if lower then some below
  else if upper then some (below + 1)
  else none

/-- Drops the zeros at the end of a whole number; the first argument bounds their number. -/
def dropZeros : Nat → Nat → Nat
  | 0, n => n
  | fuel + 1, n => if n ≠ 0 ∧ n % 10 = 0 then dropZeros fuel (n / 10) else n

/-- The shortest digits of a positive binary fraction. Seventeen digits always read back. -/
def shortest (x : Dyadic) : Digits :=
  let i := Interval.of x
  let exponent := decimalExponent i.value i.den
  let found := (List.range 17).findSome? fun k =>
    (i.onGrid? exponent (k + 1)).map fun digits => (k + 1, digits)
  let (count, digits) := found.getD (17, 0)
  let carried : Int := if digitCount digits = count then 0 else 1
  let short := dropZeros 20 digits
  ⟨short, digitCount short, exponent + 1 + carried⟩

end TableAudit.Decimal
