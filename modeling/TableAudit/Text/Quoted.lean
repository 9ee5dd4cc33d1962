import TableAudit.Text.CodePoint
import TableAudit.Text.Printable

namespace TableAudit.Text.Quoted

def hexDigit (value : Nat) : Char :=
  if value < 10 then Char.ofNat (48 + value) else Char.ofNat (87 + value)

/-- The last `width` hexadecimal digits of a number, in lower case. -/
def hexDigits : Nat → Nat → List Char
  | 0, _ => []
  | width + 1, value => hexDigits width (value / 16) ++ [hexDigit (value % 16)]

/-- The numeric escape of a code point, as short as its size allows. -/
def numericEscape (code : Nat) : List Char :=
  if code < 0x100 then '\\' :: 'x' :: hexDigits 2 code
  else if code < 0x10000 then '\\' :: 'u' :: hexDigits 4 code
  else '\\' :: 'U' :: hexDigits 8 code

/-- The quote that encloses a literal: the double one only where it saves escapes. -/
def chooseQuote (text : List Char) : Char :=
  if text.contains '\'' && !text.contains '"' then '"' else '\''

/-- One character of a literal, given the enclosing quote and the rule for what is visible. -/
def escape (quote : Char) (visible : Char → Bool) (c : Char) : List Char :=
  if c == quote || c == '\\' then ['\\', c]
  else if c == '\n' then ['\\', 'n']
  else if c == '\r' then ['\\', 'r']
  else if c == '\t' then ['\\', 't']
  else if visible c then [c]
  else numericEscape (codePoint c)

/-- The literal of a text. -/
def encode (text : List Char) : List Char :=
  let quote := chooseQuote text
  quote :: text.flatMap (escape quote isPrintable) ++ [quote]

def quote (text : String) : String :=
  String.ofList (encode text.toList)

/-- The literal of a string of bytes: only graphic ASCII characters show as they are. -/
def quoteBytes (bytes : List UInt8) : String :=
  let chars := bytes.map fun byte => Char.ofNat byte.toNat
  let mark := chooseQuote chars
  String.ofList ('b' :: mark ::
    chars.flatMap (escape mark fun c => 32 ≤ c.toNat && c.toNat < 127) ++ [mark])

end TableAudit.Text.Quoted
