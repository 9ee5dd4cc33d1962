import TableAudit.Expr.Basic
import TableAudit.Grammar.Escape

namespace TableAudit.Grammar

/-- A piece of a formatted text. -/
inductive Piece
  | chars (text : List Char)
  | field (value : Expr)

/-- How a literal run of a formatted text ends: at a doubled brace, or before a brace or the end. -/
inductive RunEnd
  | doubled | open

/-- A literal run of a formatted text, not yet unescaped. Outside a format a doubled brace stands
    for one, and a closing brace must be doubled. The braces around the name of a character are part
    of the run; the second flag says that such a name is being read. -/
def literalRun (raw top : Bool) : Bool → List Char → Option (List Char × List Char × RunEnd)
  | _, [] => some ([], [], .open)
  | true, c :: rest =>
    (literalRun raw top (c != '\x7d') rest).map fun found => (c :: found.1, found.2)
  | false, ['\\'] => some (['\\'], [], .open)
  | false, '\\' :: c :: rest =>
    if raw || c == '\x7b' || c == '\x7d' then
      (literalRun raw top false (c :: rest)).map fun found => ('\\' :: found.1, found.2)
    else
      (literalRun raw top (c == 'N' && rest.head? == some '\x7b') rest).map fun found =>
        ('\\' :: c :: found.1, found.2)
  | false, c :: rest =>
    if c == '\x7b' || c == '\x7d' then
      if top && rest.head? == some c then some ([c], rest.tail, .doubled)
      else if top && c == '\x7d' then none
      else some ([], c :: rest, .open)
    else (literalRun raw top false rest).map fun found => (c :: found.1, found.2)

/-- The text literal that a character of an expression stands in: its quote, and whether it is
    tripled. -/
abbrev Quoting :=
  Option (Char × Bool)

def closes (opening closing : Char) : Bool :=
  (opening == '(' && closing == ')') || (opening == '[' && closing == ']') ||
    (opening == '\x7b' && closing == '\x7d')

/-- A character that ends the expression of a field outside brackets, or belongs to a comparison
    when an equals sign follows. -/
def isFieldMark (c : Char) : Bool :=
  c == '!' || c == ':' || c == '\x7d' || c == '=' || c == '<' || c == '>'

/-- The marks that an equals sign turns into a comparison. -/
def isComparisonMark (c : Char) : Bool :=
  c == '!' || c == '=' || c == '<' || c == '>'

/-- The expression of a replacement field: its text up to a mark outside brackets and literals
    that ends it, and the rest with that mark. The first argument counts the characters that
    belong to what was read before them. -/
def fieldSource : Nat → Quoting → List Char → List Char → Option (List Char × List Char)
  | _, _, _, [] => none
  | skip + 1, quoting, nested, c :: rest => onward c (fieldSource skip quoting nested rest)
  | 0, some (quote, triple), nested, c :: rest =>
    if c == '\\' then none
    else if c == quote && !triple then onward c (fieldSource 0 none nested rest)
    else if c == quote && rest.take 2 == [quote, quote] then
      onward c (fieldSource 2 none nested rest)
    else onward c (fieldSource 0 (some (quote, triple)) nested rest)
  | 0, none, nested, c :: rest =>
    if c == '\\' || c == '#' then none
    else if c == '\'' || c == '"' then
      if rest.take 2 == [c, c] then onward c (fieldSource 2 (some (c, true)) nested rest)
      else onward c (fieldSource 0 (some (c, false)) nested rest)
    else if c == '(' || c == '[' || c == '\x7b' then
      onward c (fieldSource 0 none (c :: nested) rest)
    else if nested.isEmpty && isFieldMark c then
      if isComparisonMark c && rest.head? == some '=' then
        onward c (fieldSource 1 none nested rest)
      else if c == '<' || c == '>' then onward c (fieldSource 0 none nested rest)
      else some ([], c :: rest)
    else if c == ')' || c == ']' || c == '\x7d' then
      match nested with
      | [] => none
      | opening :: outer =>
        if closes opening c then onward c (fieldSource 0 none outer rest) else none
    else onward c (fieldSource 0 none nested rest)
where
  onward (c : Char) (found : Option (List Char × List Char)) : Option (List Char × List Char) :=
    found.map fun (read, rest) => (c :: read, rest)

def isFieldBlank (c : Char) : Bool :=
  c == ' ' || c == '\t' || c == '\n' || c == '\x0c'

def isAsciiBlank (c : Char) : Bool :=
  isFieldBlank c || c == '\r' || c == '\x0b'

/-- Reads the expression of a replacement field, which must not be blank. -/
def fieldValue? (embedded : List Char → Option Expr) (source : List Char) : Option Expr :=
  if source.all isFieldBlank then none else embedded source

/-- The conversions of a replacement field. -/
def isConversion (c : Char) : Bool :=
  c == 's' || c == 'r' || c == 'a'

/-- Takes the conversion of a replacement field. -/
def conversion? : List Char → Option (Option Char × List Char)
  | '!' :: c :: rest => if isConversion c then some (some c, rest) else none
  | ['!'] => none
  | text => some (none, text)

/-- Joins adjacent literal pieces and drops empty ones. -/
def mergePieces : List Piece → List Piece
  | [] => []
  | .chars text :: rest =>
    match mergePieces rest with
    | .chars more :: others => .chars (text ++ more) :: others
    | others => if text.isEmpty then others else .chars text :: others
  | .field value :: rest => .field value :: mergePieces rest

def Piece.toExpr : Piece → Expr
  | chars text => .literal (.text (String.ofList text) false)
  | field value => value

def joinPieces (pieces : List Piece) : Expr :=
  .joined ((mergePieces pieces).map Piece.toExpr)

/-- The deepest level at which a format may hold replacement fields. -/
def formatLimit : Nat := 2

/-- Reads a formatted text, or a format at a deeper level, up to its end or to the brace that ends
    the format. The first number exceeds that of the pieces. -/
def formatted (named : String → Option Char) (embedded : List Char → Option Expr) (raw : Bool) :
    Nat → Nat → List Char → Option (List Piece × List Char)
  | 0, _, _ => none
  | fuel + 1, level, text => do
    let (piece, rest, ending) ← literalRun raw (level == 0) false text
    let chars ← plainText? named raw piece
    match ending, rest with
    | .doubled, rest =>
      let (more, tail) ← formatted named embedded raw fuel level rest
      return (.chars chars :: more, tail)
    | .open, [] => return ([.chars chars], [])
    | .open, '\x7d' :: tail => return ([.chars chars], '\x7d' :: tail)
    | .open, _ :: body =>
      if formatLimit ≤ level then none
      else
        let (source, rest) ← fieldSource 0 none [] body
        let value ← fieldValue? embedded source
        let (shown, rest) :=
          match rest with
          | '=' :: tail =>
            let blanks := tail.takeWhile isAsciiBlank
            (some (source ++ '=' :: blanks), tail.dropWhile isAsciiBlank)
          | _ => (none, rest)
        let (conversion, rest) ← conversion? rest
        let (format, rest) ←
          match rest with
          | ':' :: tail =>
            (formatted named embedded raw fuel (level + 1) tail).map fun found =>
              (some (joinPieces found.1), found.2)
          | _ => some (none, rest)
        let conversion :=
          if shown.isSome && conversion.isNone && format.isNone then some 'r' else conversion
        match rest with
        | '\x7d' :: tail =>
          let (more, tail) ← formatted named embedded raw fuel level tail
          return (.chars chars :: .chars (shown.getD []) :: .field (.field value conversion format)
            :: more, tail)
        | _ => none

/-- A text literal taken apart. -/
structure LiteralParts where
  raw : Bool
  isBytes : Bool
  isFormatted : Bool
  body : List Char

/-- Takes prefix and quotes off a text literal. -/
def literalParts (lexeme : List Char) : LiteralParts :=
  let mark := lexeme.takeWhile fun c => c != '"' && c != '\''
  let has := fun (c : Char) => mark.any fun m => m.toLower == c
  let quoted := lexeme.drop mark.length
  let quote := quoted.headD '"'
  let width := if quoted.take 3 == [quote, quote, quote] && 6 ≤ quoted.length then 3 else 1
  { raw := has 'r'
    isBytes := has 'b'
    isFormatted := has 'f'
    body := (quoted.drop width).take (quoted.length - 2 * width) }

/-- The pieces of one text literal. -/
def literalPieces (named : String → Option Char) (embedded : List Char → Option Expr)
    (parts : LiteralParts) : Option (List Piece) :=
  if parts.isFormatted then
    match formatted named embedded parts.raw (parts.body.length + 1) 0 parts.body with
    | some (pieces, []) => some pieces
    | _ => none
  else (plainText? named parts.raw parts.body).map fun text => [.chars text]

/-- The expression that adjacent text literals stand for. Texts and bytes do not mix. -/
def textLiteral? (named : String → Option Char) (embedded : List Char → Option Expr)
    (lexemes : List (List Char)) : Option Expr := do
  let parts := lexemes.map literalParts
  if parts.any LiteralParts.isBytes then
    if parts.all LiteralParts.isBytes then
      let bytes ← parts.mapM fun p => plainBytes? p.raw p.body
      return .literal (.bytes bytes.flatten)
    else none
  else
    let pieces ← parts.mapM (literalPieces named embedded)
    if parts.any LiteralParts.isFormatted then return joinPieces pieces.flatten
    else
      let text := pieces.flatten.flatMap fun piece =>
        match piece with
        | .chars text => text
        | .field _ => []
      let marked := (lexemes.headD []).head? == some 'u'
      return .literal (.text (String.ofList text) marked)

end TableAudit.Grammar
