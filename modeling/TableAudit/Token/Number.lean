import TableAudit.Decimal.Reader
import TableAudit.Token.Basic

namespace TableAudit.Token

def isHexDigit (c : Char) : Bool :=
  c.isDigit || ('a' ≤ c && c ≤ 'f') || ('A' ≤ c && c ≤ 'F')

def isOctalDigit (c : Char) : Bool :=
  '0' ≤ c && c ≤ '7'

def isBinaryDigit (c : Char) : Bool :=
  c == '0' || c == '1'

def digitValue (c : Char) : Nat :=
  if c.isDigit then c.toNat - 48 else c.toLower.toNat - 87

/-- A character that may continue a name before the name is checked. -/
def isWordChar (c : Char) : Bool :=
  c.isAlphanum || c == '_' || 128 ≤ c.toNat

/-- The words that may follow a number without a blank. -/
def afterNumber : List (List Char) :=
  ["and", "else", "for", "if", "in", "is", "or", "not"].map String.toList

/-- A number must not run into a word, except into one that can follow it. -/
def endsNumber : List Char → Bool
  | [] => true
  | c :: rest => !isWordChar c || afterNumber.any fun word => word.isPrefixOf (c :: rest)

/-- Digits of one base, with single underscores between them and before the first. -/
def basedDigits (isDigit : Char → Bool) : List Char → List Char × List Char
  | [] => ([], [])
  | '_' :: d :: rest =>
    if isDigit d then
      let (digits, tail) := basedDigits isDigit (d :: rest)
      (digits, tail)
    else ([], '_' :: d :: rest)
  | c :: rest =>
    if isDigit c then
      let (digits, tail) := basedDigits isDigit rest
      (c :: digits, tail)
    else ([], c :: rest)

/-- A number literal of a base, after its two-character mark. -/
def based (base : Nat) (isDigit : Char → Bool) (text : List Char) : Option (Token × List Char) :=
  match basedDigits isDigit text with
  | ([], _) => none
  | (digits, rest) =>
    let clean :=
      match rest with
      | [] => true
      | c :: _ => c != '_' && !c.isDigit && endsNumber rest
    if clean then
      some (int (digits.foldl (fun value c => value * base + digitValue c) 0), rest)
    else none

/-- The digits at the beginning of a text. A run that breaks off at an underscore is malformed. -/
def decimalRun? (text : List Char) : Option (List Char × List Char) :=
  match Decimal.digitRun text with
  | (digits, '_' :: rest) => if digits.isEmpty then some ([], '_' :: rest) else none
  | found => some found

/-- The exponent of a float. An `e` that begins a word which may follow a number is not one. -/
def exponentPart? (text : List Char) : Option (Option Int × List Char) :=
  match text with
  | e :: rest =>
    if e == 'e' || e == 'E' then
      let signed := rest.head? == some '+' || rest.head? == some '-'
      let (negative, body) := Decimal.takeSign rest
      match decimalRun? body with
      | none => none
      | some ([], _) => if !signed && endsNumber text then some (none, text) else none
      | some (digits, tail) =>
        let size : Int := (Decimal.digitsValue digits : Nat)
        some (some (if negative then -size else size), tail)
    else some (none, text)
  | [] => some (none, [])

/-- A decimal literal: what stands before the point, then the rest of the text. A whole number
    has no zeros in front. -/
def decimal (text : List Char) : Option (Token × List Char) := do
  let (whole, rest) ← decimalRun? text
  let (point, places, rest) ←
    match rest with
    | '.' :: tail => (decimalRun? tail).map fun (places, rest) => (true, places, rest)
    | _ => some (false, [], rest)
  let (exponent, rest) ← exponentPart? rest
  let value := Decimal.Fraction.toFloat false
    ⟨Decimal.digitsValue (whole ++ places), exponent.getD 0 - (places.length : Nat)⟩
  let imaginaryMark := rest.head? == some 'j' || rest.head? == some 'J'
  if imaginaryMark then
    if endsNumber rest.tail then some (imaginary value, rest.tail) else none
  else if !endsNumber rest then none
  else if point || exponent.isSome then some (float value, rest)
  else if whole.length > Decimal.digitLimit then none
  else if whole.head? == some '0' && whole.any (· != '0') then none
  else some (int (Decimal.digitsValue whole), rest)

/-- Reads the number literal at the beginning of a text that begins with a digit, or with a point
    and a digit. -/
def number (text : List Char) : Option (Token × List Char) :=
  match text with
  | '0' :: mark :: rest =>
    if mark == 'x' || mark == 'X' then based 16 isHexDigit rest
    else if mark == 'o' || mark == 'O' then based 8 isOctalDigit rest
    else if mark == 'b' || mark == 'B' then based 2 isBinaryDigit rest
    else decimal text
  | _ => decimal text

end TableAudit.Token
