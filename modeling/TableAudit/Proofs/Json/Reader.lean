import TableAudit.Grammar.Escape
import TableAudit.Json.Basic

namespace TableAudit.Json

/-- The blanks that may stand between the parts of a document. -/
def isBlank (c : Char) : Bool :=
  c == ' ' || c == '\t' || c == '\n' || c == '\r'

def skipBlanks (input : List Char) : List Char :=
  input.dropWhile isBlank

/-- The character for which a letter stands after a backslash. -/
def letterMeaning? : Char → Option Char
  | '"' => some '"'
  | '\\' => some '\\'
  | '/' => some '/'
  | 'b' => some '\x08'
  | 'f' => some '\x0c'
  | 'n' => some '\n'
  | 'r' => some '\r'
  | 't' => some '\t'
  | _ => none

/-- The code unit of four hexadecimal digits, and what is after them. -/
def readUnit? (input : List Char) : Option (Nat × List Char) :=
  if input.length < 4 then none
  else (Grammar.hexValue? (input.take 4)).map fun unit => (unit, input.drop 4)

/-- The character of one code unit, or of two that belong together. -/
def readUnits? (input : List Char) : Option (Char × List Char) := do
  let (unit, rest) ← readUnit? input
  if unit < 0xd800 || 0xdfff < unit then return (Char.ofNat unit, rest)
  else
    match rest with
    | '\\' :: 'u' :: rest =>
      let (second, rest) ← readUnit? rest
      if unit < 0xdc00 && 0xdc00 ≤ second && second ≤ 0xdfff then
        return (Char.ofNat (0x10000 + (unit - 0xd800) * 0x400 + (second - 0xdc00)), rest)
      else none
    | _ => none

/-- One character of a text between quotes. Controls must be escaped. -/
def readChar? : List Char → Option (Char × List Char)
  | [] => none
  | c :: rest =>
    if c == '\\' then
      match rest with
      | [] => none
      | letter :: rest =>
        if letter == 'u' then readUnits? rest else (letterMeaning? letter).map fun c => (c, rest)
    else if c.toNat < 32 then none
    else some (c, rest)

/-- The text after an opening quote, and what is after the closing one. The first argument exceeds
    the number of characters. -/
def readText? : Nat → List Char → Option (List Char × List Char)
  | 0, _ => none
  | fuel + 1, input =>
    if input.head? = some '"' then some ([], input.tail)
    else do
      let (c, rest) ← readChar? input
      let (others, rest) ← readText? fuel rest
      return (c :: others, rest)

/-- A text between quotes, and what is after it. -/
def readQuoted? (input : List Char) : Option (String × List Char) :=
  match skipBlanks input with
  | '"' :: rest =>
    (readText? (rest.length + 1) rest).map fun read => (String.ofList read.1, read.2)
  | _ => none

def isNumberChar (c : Char) : Bool :=
  c.isDigit || c == '-' || c == '+' || c == '.' || c == 'e' || c == 'E'

/-- Digits and nothing else, but some. -/
def isDigits (input : List Char) : Bool :=
  !input.isEmpty && input.all Char.isDigit

/-- Nothing, or the mark of an exponent and digits that may have a sign. -/
def isExponent : List Char → Bool
  | [] => true
  | mark :: sign :: digits =>
    (mark == 'e' || mark == 'E') &&
      (if sign == '-' || sign == '+' then isDigits digits else isDigits (sign :: digits))
  | _ => false

/-- What may follow the whole part of a number. -/
def isFraction : List Char → Bool
  | '.' :: rest =>
    isDigits (rest.takeWhile Char.isDigit) && isExponent (rest.dropWhile Char.isDigit)
  | rest => isExponent rest

/-- Whether a text is a number. The whole part has no zero before other digits. -/
def isNumeral (input : List Char) : Bool :=
  let unsigned := if input.head? = some '-' then input.tail else input
  let whole := unsigned.takeWhile Char.isDigit
  isDigits whole && (whole.length == 1 || whole.head? != some '0') &&
    isFraction (unsigned.dropWhile Char.isDigit)

def readNumber? (input : List Char) : Option (Json × List Char) :=
  let numeral := input.takeWhile isNumberChar
  if isNumeral numeral then
    some (number (String.ofList numeral), input.dropWhile isNumberChar)
  else none

/-- A colon after the name of a member, and what is after it. -/
def skipColon? (input : List Char) : Option (List Char) :=
  match skipBlanks input with
  | ':' :: rest => some rest
  | _ => none

mutual

/-- The document with which a text begins, and what is after it. The first argument exceeds the
    number of characters of the document. -/
def readValue? : Nat → List Char → Option (Json × List Char)
  | 0, _ => none
  | fuel + 1, input =>
    match skipBlanks input with
    | 'n' :: 'u' :: 'l' :: 'l' :: rest => some (null, rest)
    | 't' :: 'r' :: 'u' :: 'e' :: rest => some (truth true, rest)
    | 'f' :: 'a' :: 'l' :: 's' :: 'e' :: rest => some (truth false, rest)
    | '"' :: rest => (readQuoted? ('"' :: rest)).map fun read => (text read.1, read.2)
    | '[' :: rest =>
      if (skipBlanks rest).head? = some ']' then some (array [], (skipBlanks rest).tail)
      else (readItems? fuel rest).map fun read => (array read.1, read.2)
    | '{' :: rest =>
      if (skipBlanks rest).head? = some '}' then some (object [], (skipBlanks rest).tail)
      else (readMembers? fuel rest).map fun read => (object read.1, read.2)
    | rest => readNumber? rest

/-- Items with commas between them, up to the end of their array. -/
def readItems? : Nat → List Char → Option (List Json × List Char)
  | 0, _ => none
  | fuel + 1, input => do
    let (item, rest) ← readValue? fuel input
    match skipBlanks rest with
    | ',' :: rest =>
      let (items, rest) ← readItems? fuel rest
      return (item :: items, rest)
    | ']' :: rest => return ([item], rest)
    | _ => none

/-- Members with commas between them, up to the end of their object. -/
def readMembers? : Nat → List Char → Option (List (String × Json) × List Char)
  | 0, _ => none
  | fuel + 1, input => do
    let (name, rest) ← readQuoted? input
    let rest ← skipColon? rest
    let (value, rest) ← readValue? fuel rest
    match skipBlanks rest with
    | ',' :: rest =>
      let (members, rest) ← readMembers? fuel rest
      return ((name, value) :: members, rest)
    | '}' :: rest => return ([(name, value)], rest)
    | _ => none

end

/-- The document that a text holds, if it holds one and nothing else. -/
def read? (input : String) : Option Json := do
  let (document, rest) ← readValue? (input.toList.length + 1) input.toList
  if (skipBlanks rest).isEmpty then return document else none

end TableAudit.Json
