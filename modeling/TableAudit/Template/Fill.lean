import TableAudit.Decimal.General
import TableAudit.Template.Basic
import TableAudit.Value.Number

namespace TableAudit.Template

/-- The digits of a number in base eight, ten or sixteen. -/
def digitsIn (base n : Nat) : String :=
  String.ofList (Nat.toDigits base n)

def upper (text : String) : String :=
  String.ofList (text.toList.map Char.toUpper)

/-- What goes into a place before it is padded: a sign, the two characters that tell the base, and
    the text itself. -/
structure Piece where
  sign : String
  base : String
  body : String
  numeric : Bool

def Piece.ofText (text : String) : Piece :=
  ⟨"", "", text, false⟩

/-- The sign that a number shows. -/
def signOf (marks : Marks) (negative : Bool) : String :=
  if negative then "-" else if marks.plus then "+" else if marks.blank then " " else ""

def wrongNumber (letter : Char) (value : Value) : Raised :=
  let wanted :=
    if letter == 'o' || letter == 'x' || letter == 'X' then "an integer" else "a real number"
  .of .typeError
    ("%" ++ String.singleton letter ++ " format: " ++ wanted ++ " is required, not " ++
      value.typeName)

/-- The whole number of a value: floats lose their fraction, but are none in other bases. -/
def wholeOf (letter : Char) (value : Value) : Except Raised Int :=
  match value with
  | .bool b => .ok (if b then 1 else 0)
  | .int n => .ok n
  | .float x =>
    if letter == 'o' || letter == 'x' || letter == 'X' then .error (wrongNumber letter value)
    else (Number.float x).truncate
  | _ => .error (wrongNumber letter value)

def wholePiece (p : Place) (n : Int) : Piece :=
  let base := if p.letter == 'o' then 8 else if p.letter == 'x' || p.letter == 'X' then 16 else 10
  let digits := digitsIn base n.natAbs
  let digits := if p.letter == 'X' then upper digits else digits
  let digits := Decimal.zeros (p.precision.getD 0 - digits.length) ++ digits
  let told :=
    if p.marks.alternate && base != 10 then String.ofList ['0', p.letter] else ""
  ⟨signOf p.marks (n < 0), told, digits, true⟩

/-- The float of a value. -/
def floatOf (value : Value) : Except Raised Float :=
  match Number.ofValue? value with
  | some number => number.toFloat
  | none => .error (.of .typeError ("must be real number, not " ++ value.typeName))

def floatPiece (p : Place) (x : Float) : Piece :=
  let places := p.precision.getD 6
  let keep := p.marks.alternate
  let small := p.letter.toLower
  let (negative, body) :=
    match Decimal.Binary.ofFloat x with
    | .nan => (false, "nan")
    | .infinite negative => (negative, "inf")
    | .finite negative size =>
      if small == 'e' then
        (negative, Decimal.scientificQuotient keep places size.num size.den)
      else if small == 'f' then
        let text := Decimal.fixedQuotient places size.num size.den
        (negative, if keep && places == 0 then text ++ "." else text)
      else (negative, Decimal.generalQuotient keep places size.num size.den)
  ⟨signOf p.marks negative, "", if p.letter.isUpper then upper body else body, true⟩

/-- A character by its code, or a text of one character. -/
def characterOf (value : Value) : Except Raised String :=
  let wanted := Raised.of .typeError "%c requires int or char"
  let ofCode := fun (n : Int) =>
    if 0 ≤ n ∧ n < 0x110000 then Except.ok (String.singleton (Text.ofCodePoint n.toNat))
    else .error (.of .overflowError "%c arg not in range(0x110000)")
  match value with
  | .text s => if s.length = 1 then .ok s else .error wanted
  | .int n => ofCode n
  | .bool b => ofCode (if b then 1 else 0)
  | _ => .error wanted

/-- A text with all characters beyond ASCII escaped. -/
def asciiOnly (text : String) : String :=
  String.ofList
    (text.toList.flatMap fun c => if c.toNat < 128 then [c] else Text.Quoted.numericEscape (Text.codePoint c))

def cut (precision : Option Nat) (text : String) : String :=
  match precision with
  | some n => String.ofList (text.toList.take n)
  | none => text

def isOneOf (letters : String) (c : Char) : Bool :=
  letters.toList.contains c

/-- The letter of a place that is none, at its position in the template. -/
def unsupported (letter : Char) (index : Nat) : Raised :=
  let code := letter.toNat
  let shown := if 31 ≤ code && code < 127 then letter else '?'
  .of .valueError
    ("unsupported format character '" ++ String.singleton shown ++ "' (0x" ++ digitsIn 16 code ++
      ") at index " ++ toString index)

/-- What a value puts into a place. -/
def pieceOf (flavour : Flavour) (p : Place) (index : Nat) (value : Value) :
    Except Raised Piece :=
  if flavour == .bytes && isOneOf "sb" p.letter then
    .error (.of .typeError
      ("%b requires a bytes-like object, or an object that implements __bytes__, not '" ++
        value.typeName ++ "'"))
  else if p.letter == 's' then .ok (.ofText (cut p.precision value.display))
  else if p.letter == 'r' then .ok (.ofText (cut p.precision value.literal))
  else if p.letter == 'a' then .ok (.ofText (cut p.precision (asciiOnly value.literal)))
  else if isOneOf "diuoxX" p.letter then (wholeOf p.letter value).map (wholePiece p)
  else if isOneOf "eEfFgG" p.letter then (floatOf value).map (floatPiece p)
  else if p.letter == 'c' then (characterOf value).map .ofText
  else .error (unsupported p.letter index)

/-- A piece padded to the width of its place: zeros stand behind sign and base, blanks in front of
    them or at the end. -/
def Piece.pad (piece : Piece) (p : Place) : String :=
  let size := piece.sign.length + piece.base.length + piece.body.length
  let fill := fun (c : Char) => String.ofList (List.replicate (p.width - size) c)
  let start := piece.sign ++ piece.base
  if p.marks.left then start ++ piece.body ++ fill ' '
  else if p.marks.zero && piece.numeric then start ++ fill '0' ++ piece.body
  else fill ' ' ++ start ++ piece.body

/-- Fills the places of a template from the values. The number bounds the places that are still
    to come, and `length` is that of the whole template. -/
def fillFrom (flavour : Flavour) (length : Nat) :
    Nat → Values → List Char → Except Raised (List Char × Values)
  | 0, values, text => .ok (text, values)
  | fuel + 1, values, text =>
    let plain := text.takeWhile (· != '%')
    match text.dropWhile (· != '%') with
    | [] => .ok (plain, values)
    | _ :: rest => do
      let (p, values, rest) ← readPlace values rest
      let index := length - rest.length - 1
      if p.letter == '%' then
        let (tail, values) ← fillFrom flavour length fuel values rest
        return (plain ++ '%' :: tail, values)
      let (value, values) ← values.next
      let piece ← pieceOf flavour p index value
      let (tail, values) ← fillFrom flavour length fuel values rest
      return (plain ++ (piece.pad p).toList ++ tail, values)

/-- The text of a template with its places filled; all values must be used. -/
def fill (flavour : Flavour) (template : String) (values : Values) : Except Raised String := do
  let text := template.toList
  let (filled, values) ← fillFrom flavour text.length text.length values text
  if values.unused then throw (tooMany flavour)
  return String.ofList filled

end TableAudit.Template
