import TableAudit.Text.CodePoint
import TableAudit.Token.Number

namespace TableAudit.Grammar

/-- The number that hexadecimal digits write. -/
def hexValue? (digits : List Char) : Option Nat :=
  if digits.all Token.isHexDigit then
    some (digits.foldl (fun value c => value * 16 + Token.digitValue c) 0)
  else none

/-- The escapes of one letter. -/
def letterEscape? (c : Char) : Option Nat :=
  match c with
  | '\\' => some 92
  | '\'' => some 39
  | '"' => some 34
  | 'a' => some 7
  | 'b' => some 8
  | 'f' => some 12
  | 'n' => some 10
  | 'r' => some 13
  | 't' => some 9
  | 'v' => some 11
  | _ => none

/-- The number of digits that a numeric escape of a letter takes. -/
def escapeWidth? (forBytes : Bool) (c : Char) : Option Nat :=
  match c with
  | 'x' => some 2
  | 'u' => if forBytes then none else some 4
  | 'U' => if forBytes then none else some 8
  | _ => none

def octalValue (digits : List Char) : Nat :=
  digits.foldl (fun value c => value * 8 + Token.digitValue c) 0

/-- The character that an escape calls by a name in braces, and what comes after it. -/
def namedEscape? (named : String → Option Char) : List Char → Option (Char × List Char)
  | '\x7b' :: rest =>
    let name := rest.takeWhile fun c => c != '\x7d'
    if name.length < rest.length then
      (named (String.ofList name)).map fun c => (c, rest.drop (name.length + 1))
    else none
  | _ => none

/-- Undoes the escapes of a text literal, or of a literal of bytes, as code points. A numeric
    escape with too few digits or beyond the last code point is malformed, and so is a name that no
    character has. The number exceeds that of the escapes. -/
def unescape (named : String → Option Char) (forBytes : Bool) : Nat → List Char → Option (List Nat)
  | _, [] => some []
  | 0, _ => none
  | _ + 1, ['\\'] => some [92]
  | fuel + 1, '\\' :: c :: rest =>
    if c == '\n' then unescape named forBytes fuel rest
    else
      match letterEscape? c with
      | some code => (unescape named forBytes fuel rest).map (code :: ·)
      | none =>
        if Token.isOctalDigit c then
          let digits := c :: (rest.take 2).takeWhile Token.isOctalDigit
          let code := octalValue digits
          let code := if forBytes then code % 256 else code
          (unescape named forBytes fuel (rest.drop (digits.length - 1))).map (code :: ·)
        else
          match escapeWidth? forBytes c with
          | some width =>
            let digits := rest.take width
            if digits.length < width then none
            else do
              let code ← hexValue? digits
              if 0x10FFFF < code then none
              else (unescape named forBytes fuel (rest.drop width)).map (code :: ·)
          | none =>
            if c == 'N' && !forBytes then do
              let (character, rest) ← namedEscape? named rest
              (unescape named forBytes fuel rest).map (Text.codePoint character :: ·)
            else
              (unescape named forBytes fuel rest).map fun codes => 92 :: Text.codePoint c :: codes
  | fuel + 1, c :: rest => (unescape named forBytes fuel rest).map (Text.codePoint c :: ·)

/-- The characters that a piece of a text literal stands for. -/
def plainText? (named : String → Option Char) (raw : Bool) (piece : List Char) :
    Option (List Char) :=
  if raw then some piece
  else
    (unescape named false (piece.length + 1) piece).map fun codes => codes.map Text.ofCodePoint

/-- The bytes that a literal of bytes stands for; it holds ASCII characters only. -/
def plainBytes? (raw : Bool) (piece : List Char) : Option (List UInt8) :=
  if piece.any fun c => 128 ≤ c.toNat then none
  else
    let codes :=
      if raw then some (piece.map Char.toNat)
      else unescape (fun _ => none) true (piece.length + 1) piece
    codes.map fun codes => codes.map UInt8.ofNat

end TableAudit.Grammar
