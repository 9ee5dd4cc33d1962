import TableAudit.Decimal.Notation

namespace TableAudit.Decimal

/-- A count of digits, the digits as one number, and the power of ten of the first digit. -/
structure Significant where
  digits : Nat
  exponent : Int

/-- The first `count` digits of a quotient, the last one rounded to nearest, ties to even. A carry
    out of the first digit moves the power of ten. -/
def significant (count num den : Nat) : Significant :=
  if num = 0 then ⟨0, 0⟩
  else
    let guess : Int := ((Nat.repr num).length : Int) - ((Nat.repr den).length : Int)
    let reaches := fun (e : Int) => decide (den * pow10 e.toNat ≤ num * pow10 (-e).toNat)
    let exponent := if reaches guess then guess else guess - 1
    let shift := (count : Int) - 1 - exponent
    let digits := roundDiv (num * pow10 shift.toNat) (den * pow10 (-shift).toNat)
    if digits = pow10 count then ⟨pow10 (count - 1), exponent + 1⟩ else ⟨digits, exponent⟩

def exponentText (exponent : Int) : String :=
  "e" ++ (if exponent < 0 then "-" else "+") ++ padded 2 exponent.natAbs

/-- Digits with a point after the first; the point stays without places only if it is kept. -/
def pointed (keepPoint : Bool) (text : List Char) : String :=
  match text with
  | [] => ""
  | [c] => if keepPoint then String.ofList [c, '.'] else String.ofList [c]
  | c :: rest => String.ofList (c :: '.' :: rest)

/-- One digit, `places` more after the point, and an exponent. -/
def scientificQuotient (keepPoint : Bool) (places num den : Nat) : String :=
  let s := significant (places + 1) num den
  pointed keepPoint (padded (places + 1) s.digits).toList ++ exponentText s.exponent

def dropLastZeros (text : List Char) : List Char :=
  (text.reverse.dropWhile (· == '0')).reverse

/-- Digits with the point in place, for a power of ten of the first digit from the fourth place on. -/
def placed (keepPoint : Bool) (exponent : Int) (text : List Char) : String :=
  if exponent < 0 then "0." ++ zeros ((-exponent).toNat - 1) ++ String.ofList text
  else
    let before := exponent.toNat + 1
    let whole := text.take before ++ List.replicate (before - text.length) '0'
    let places := text.drop before
    if places.isEmpty && !keepPoint then String.ofList whole
    else String.ofList whole ++ "." ++ String.ofList places

/-- At most `count` digits: positional for moderate exponents, else with an exponent. Zeros at the
    end are dropped unless the point is kept. -/
def generalQuotient (keepPoint : Bool) (count num den : Nat) : String :=
  let count := max count 1
  let s := significant count num den
  let all := (padded count s.digits).toList
  let shown := if keepPoint then all else dropLastZeros all
  let text := if shown.isEmpty then ['0'] else shown
  if -4 ≤ s.exponent ∧ s.exponent < count then placed keepPoint s.exponent text
  else pointed keepPoint text ++ exponentText s.exponent

end TableAudit.Decimal
