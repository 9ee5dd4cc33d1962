import TableAudit.Decimal.Shortest

namespace TableAudit.Decimal

/-- The choices of a notation for floats. -/
structure Notation where
  /-- The exponents written positionally, from the first up to but not including the second. -/
  positionalFrom : Int
  positionalTo : Int
  /-- A whole number keeps a zero after its point. -/
  pointZero : Bool
  /-- The least number of digits of an exponent. -/
  exponentWidth : Nat
  nan : String
  infinity : String

/-- Numbers from a ten-thousandth up to ten to the sixteenth are positional and keep a point. -/
def plainNotation : Notation :=
  { positionalFrom := -4
    positionalTo := 16
    pointZero := true
    exponentWidth := 2
    nan := "nan"
    infinity := "inf" }

/-- The same without a point after a whole number. -/
def bareNotation : Notation :=
  { plainNotation with pointZero := false }

def zeros (n : Nat) : String :=
  String.ofList (List.replicate n '0')

/-- Fills a number up with zeros on the left. -/
def padded (width : Nat) (n : Nat) : String :=
  let text := Nat.repr n
  zeros (width - text.length) ++ text

/-- Digits with their point in place. -/
def Digits.positional (pointZero : Bool) (d : Digits) : String :=
  let text := Nat.repr d.digits
  if d.point ≤ 0 then "0." ++ zeros (-d.point).toNat ++ text
  else
    let before := d.point.toNat
    if d.count ≤ before then
      text ++ zeros (before - d.count) ++ (if pointZero then ".0" else "")
    else String.ofList (text.toList.take before) ++ "." ++ String.ofList (text.toList.drop before)

/-- Digits with the point after the first, and an exponent with its sign. -/
def Digits.scientific (width : Nat) (d : Digits) : String :=
  let exponent := d.point - 1
  let sign := if exponent < 0 then "-" else "+"
  let mantissa :=
    match (Nat.repr d.digits).toList with
    | [] => ""
    | [c] => String.ofList [c]
    | c :: rest => String.ofList (c :: '.' :: rest)
  mantissa ++ "e" ++ sign ++ padded width exponent.natAbs

/-- Zero has one digit, before the point. -/
def Digits.zero : Digits :=
  ⟨0, 1, 1⟩

/-- The text of a float by a notation. -/
def Notation.write (style : Notation) (x : Float) : String :=
  match Binary.ofFloat x with
  | .nan => style.nan
  | .infinite negative => (if negative then "-" else "") ++ style.infinity
  | .finite negative size =>
    let digits := if size.mantissa = 0 then Digits.zero else shortest size
    let exponent := digits.point - 1
    let body :=
      if style.positionalFrom ≤ exponent ∧ exponent < style.positionalTo then
        digits.positional style.pointZero
      else digits.scientific style.exponentWidth
    (if negative then "-" else "") ++ body

/-- The literal of a float. -/
def floatText (x : Float) : String :=
  plainNotation.write x

/-- A quotient with a fixed number of places, the last one rounded to nearest, ties to even. -/
def fixedQuotient (places num den : Nat) : String :=
  let scaled := roundDiv (num * pow10 places) den
  let whole := Nat.repr (scaled / pow10 places)
  if places = 0 then whole else whole ++ "." ++ padded places (scaled % pow10 places)

/-- A float with a fixed number of places. -/
def fixed (places : Nat) (x : Float) : String :=
  match Binary.ofFloat x with
  | .nan => "nan"
  | .infinite negative => if negative then "-inf" else "inf"
  | .finite negative size =>
    (if negative then "-" else "") ++ fixedQuotient places size.num size.den

end TableAudit.Decimal
