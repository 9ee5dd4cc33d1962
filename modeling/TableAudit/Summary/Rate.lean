import TableAudit.Decimal.Binary
import TableAudit.Decimal.Notation
import TableAudit.Value.Raised

namespace TableAudit

/-- A rate in tenths of a percent. Counts whose hundredfold is beyond the range of floats have
    no finite rate. -/
inductive Rate
  | tenths (count : Nat)
  | unbounded
deriving DecidableEq, Repr

namespace Rate

def zero : Rate :=
  tenths 0

def full : Rate :=
  tenths 1000

def text : Rate → String
  | tenths count => Nat.repr (count / 10) ++ "." ++ Nat.repr (count % 10)
  | unbounded => "inf"

/-- The order of rates by size. -/
def le : Rate → Rate → Bool
  | _, unbounded => true
  | unbounded, tenths _ => false
  | tenths a, tenths b => a ≤ b

/-- The first number beyond the range of floats. -/
def limit : Nat :=
  Decimal.pow2 1024

/-- A quotient rounded to 53 binary digits. -/
def rounded (num den : Nat) : Decimal.Dyadic :=
  if num = 0 then ⟨0, 0⟩ else Decimal.nearest num den

/-- A whole number rounded to 53 binary digits; it stays whole. -/
def roundedWhole (n : Nat) : Nat :=
  let x := rounded n 1
  x.num / x.den

def tooLarge : Raised :=
  .of .overflowError "int too large to convert to float"

/-- The share of the passed among all, as far as floats go. -/
def ofCounts (passed total : Nat) : Rate :=
  let hundredfold := roundedWhole (100 * roundedWhole passed)
  if limit ≤ hundredfold then unbounded
  else
    let share := rounded hundredfold (roundedWhole total)
    tenths (Decimal.roundDiv (share.num * 10) share.den)

/-- The share of the passed rows among all. A count beyond the range of floats is an error. -/
def ofRows (passed total : Nat) : Except Raised Rate :=
  if limit ≤ roundedWhole passed ∨ limit ≤ roundedWhole total then .error tooLarge
  else .ok (ofCounts passed total)

end Rate

end TableAudit
