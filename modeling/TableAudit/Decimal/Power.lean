namespace TableAudit.Decimal

def pow2 (exponent : Nat) : Nat :=
  Nat.pow 2 exponent

def pow10 (exponent : Nat) : Nat :=
  Nat.pow 10 exponent

theorem pow2_pos (exponent : Nat) : 0 < pow2 exponent :=
  Nat.pow_pos (by decide)

/-- The limit on the digits of a whole number that is read or written in decimals. -/
def digitLimit : Nat := 4300

/-- Whether a whole number has more digits than can be written. -/
def exceedsDigits (n : Int) : Bool :=
  pow10 digitLimit ≤ n.natAbs

def tooManyDigits : String :=
  "Exceeds the limit (" ++ toString digitLimit ++
    " digits) for integer string conversion; use sys.set_int_max_str_digits() to increase the limit"

end TableAudit.Decimal
