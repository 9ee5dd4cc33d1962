import TableAudit.Decimal.Binary
import TableAudit.Text.Blank

namespace TableAudit.Decimal

/-- A run of digits with single underscores between them: its digits, in order, and the rest. -/
def digitRun : List Char → List Char × List Char
  | [] => ([], [])
  | c :: '_' :: d :: rest =>
    if !c.isDigit then ([], c :: '_' :: d :: rest)
    else if !d.isDigit then ([c], '_' :: d :: rest)
    else
      let (digits, tail) := digitRun (d :: rest)
      (c :: digits, tail)
  | c :: rest =>
    if c.isDigit then
      let (digits, tail) := digitRun rest
      (c :: digits, tail)
    else ([], c :: rest)

def digitsValue (digits : List Char) : Nat :=
  digits.foldl (fun value c => value * 10 + (c.toNat - 48)) 0

/-- A decimal fraction: `digits · 10 ^ exponent`. -/
structure Fraction where
  digits : Nat
  exponent : Int

/-- The float nearest to a decimal fraction. Exponents far beyond the range of floats are
    decided without computing the power. -/
def Fraction.toFloat (negative : Bool) (x : Fraction) : Float :=
  let size := (Nat.repr x.digits).length + x.exponent
  if x.digits = 0 then floatOfQuotient negative 0 1
  else if 400 < size then floatOfQuotient negative (pow2 1024) 1
  else if size < -400 then floatOfQuotient negative 0 1
  else floatOfQuotient negative (x.digits * pow10 x.exponent.toNat) (pow10 (-x.exponent).toNat)

/-- Takes the sign off a number. -/
def takeSign : List Char → Bool × List Char
  | '-' :: rest => (true, rest)
  | '+' :: rest => (false, rest)
  | text => (false, text)

/-- An exponent with its sign, to the end of the text. -/
def exponent? (text : List Char) : Option Int :=
  let (negative, rest) := takeSign text
  match digitRun rest with
  | ([], _) => none
  | (digits, []) =>
    let size : Int := (digitsValue digits : Nat)
    some (if negative then -size else size)
  | _ => none

/-- A decimal fraction without a sign, to the end of the text: digits before the point, after it,
    or both, and perhaps an exponent. -/
def fraction? (text : List Char) : Option Fraction :=
  let (whole, rest) := digitRun text
  let (places, rest) :=
    match rest with
    | '.' :: tail => digitRun tail
    | _ => ([], rest)
  if whole.isEmpty && places.isEmpty then none
  else
    let digits := digitsValue (whole ++ places)
    let scale : Int := -(places.length : Nat)
    match rest with
    | [] => some ⟨digits, scale⟩
    | c :: tail =>
      if c == 'e' || c == 'E' then (exponent? tail).map fun e => ⟨digits, scale + e⟩ else none

def lowered (text : List Char) : String :=
  String.ofList (text.map Char.toLower)

/-- Reads a float: a decimal fraction, an infinity or a NaN, blanks around it ignored. -/
def float? (text : String) : Option Float :=
  let (negative, body) := takeSign (Text.strip text.toList)
  let word := lowered body
  if word = "inf" ∨ word = "infinity" then some (floatOfQuotient negative (pow2 1024) 1)
  else if word = "nan" then some (0.0 / 0.0)
  else (fraction? body).map (Fraction.toFloat negative)

/-- Reads a whole number, blanks around it ignored. -/
def int? (text : String) : Option Int :=
  let (negative, body) := takeSign (Text.strip text.toList)
  match digitRun body with
  | ([], _) => none
  | (digits, []) =>
    let size : Int := (digitsValue digits : Nat)
    some (if negative then -size else size)
  | _ => none

end TableAudit.Decimal
