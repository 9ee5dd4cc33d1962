import TableAudit.Text.Compatibility
import TableAudit.Text.Identifier
import TableAudit.Text.Printable
import TableAudit.Token.Number

namespace TableAudit.Token

/-- Every line end as a line feed. -/
def normalizeLineEnds : List Char → List Char
  | [] => []
  | '\r' :: '\n' :: rest => '\n' :: normalizeLineEnds rest
  | c :: rest => (if c == '\r' then '\n' else c) :: normalizeLineEnds rest

/-- A text with a line feed at its end, unless it is empty. -/
def closeLastLine (text : List Char) : List Char :=
  match text.getLast? with
  | some '\n' => text
  | none => text
  | some _ => text ++ ['\n']

/-- The state of a scan: what is left and where it begins, the columns of the enclosing blocks,
    the open brackets with their lines, and whether a line begins here. -/
structure Scanner where
  rest : List Char
  place : Place
  indents : List (Nat × Nat)
  brackets : List (Char × Nat)
  atLineStart : Bool

/-- The line on which a text ends; a line feed at the very end begins no line. -/
def Scanner.endLine (s : Scanner) : Nat :=
  if s.place.column = 0 ∧ 1 < s.place.line then s.place.line - 1 else s.place.line

def Scanner.fault (s : Scanner) (kind : FaultKind) : ScanFault :=
  ⟨kind, s.place.line, s.brackets⟩

/-- Moves over the next characters. -/
def Scanner.advance (s : Scanner) (text : List Char) (rest : List Char) : Scanner :=
  { s with rest := rest, place := Place.after s.place text, atLineStart := false }

/-- The width of the blanks before a line, with tab stops at every eighth column and with tabs as
    single columns. Two widths agree only where no tab makes the difference. -/
structure Margin where
  width : Nat
  narrow : Nat
  /-- The widths at the first line continuation, which hold for the whole line. -/
  fixed : Option (Nat × Nat)
  blanks : List Char
  rest : List Char

/-- Measures the blanks before a line. A continued line has the width of its first part. -/
def measure : Nat → Nat → Option (Nat × Nat) → List Char → Except FaultKind Margin
  | width, narrow, fixed, ' ' :: rest =>
    (measure (width + 1) (narrow + 1) fixed rest).map fun m => { m with blanks := ' ' :: m.blanks }
  | width, narrow, fixed, '\t' :: rest =>
    (measure ((width / 8 + 1) * 8) (narrow + 1) fixed rest).map fun m =>
      { m with blanks := '\t' :: m.blanks }
  | _, _, fixed, '\x0c' :: rest =>
    (measure 0 0 fixed rest).map fun m => { m with blanks := '\x0c' :: m.blanks }
  | width, narrow, fixed, '\\' :: '\n' :: rest =>
    if rest.isEmpty then .error .endOfText
    else
      let kept := if fixed.isNone && width != 0 then some (width, width) else fixed
      (measure width narrow kept rest).map fun m => { m with blanks := '\\' :: '\n' :: m.blanks }
  | _, _, _, '\\' :: _ => .error .layout
  | width, narrow, fixed, rest => .ok ⟨width, narrow, fixed, [], rest⟩

/-- The greatest depth of blocks, the text itself counted as one. -/
def blockLimit : Nat := 100

/-- The greatest depth of brackets. -/
def bracketLimit : Nat := 200

/-- Leaves blocks until one is no deeper than the margin. -/
def leaveBlocks (width : Nat) : List (Nat × Nat) → Nat × List (Nat × Nat)
  | [] => (0, [])
  | (w, n) :: outer =>
    if width < w then
      let (left, remaining) := leaveBlocks width outer
      (left + 1, remaining)
    else (0, (w, n) :: outer)

/-- The layout tokens of a margin and the blocks after it. The two widths must tell the same
    story about every block. -/
def layout (width narrow : Nat) (indents : List (Nat × Nat)) :
    Option (List Token × List (Nat × Nat)) :=
  let (w, n) := indents.headD (0, 0)
  if width = w then if narrow = n then some ([], indents) else none
  else if w < width then
    if indents.length ≥ blockLimit ∨ narrow ≤ n then none
    else some ([indent], (width, narrow) :: indents)
  else
    let (left, remaining) := leaveBlocks width indents
    let (w, n) := remaining.headD (0, 0)
    if width = w ∧ narrow = n then some (List.replicate left dedent, remaining) else none

/-- The end of a text literal after its opening quotes: what it holds with its closing quotes, and
    the rest. Nothing where it is not closed, with what was read. -/
def textBody (quote : Char) (triple : Bool) : List Char → Except (List Char) (List Char × List Char)
  | [] => .error []
  | '\\' :: c :: rest =>
    match textBody quote triple rest with
    | .ok (body, tail) => .ok ('\\' :: c :: body, tail)
    | .error read => .error ('\\' :: c :: read)
  | c :: rest =>
    if c == quote then
      if triple then
        match rest with
        | a :: b :: tail =>
          if a == quote && b == quote then .ok ([c, a, b], tail)
          else prepend c (textBody quote triple rest)
        | _ => prepend c (textBody quote triple rest)
      else .ok ([c], rest)
    else if c == '\n' && !triple then .error []
    else prepend c (textBody quote triple rest)
where
  prepend (c : Char) : Except (List Char) (List Char × List Char) →
      Except (List Char) (List Char × List Char)
    | .ok (body, tail) => .ok (c :: body, tail)
    | .error read => .error (c :: read)

/-- The prefixes of text literals, in small letters. -/
def textPrefixes : List String :=
  ["", "b", "u", "r", "f", "br", "rb", "fr", "rf"]

/-- The prefix of a text literal, if one begins here. -/
def textPrefix? (text : List Char) : Option (List Char × List Char) :=
  [0, 1, 2].findSome? fun n =>
    let mark := text.take n
    let rest := text.drop n
    let quoted := rest.head? == some '"' || rest.head? == some '\''
    if mark.length = n && quoted && textPrefixes.contains (Decimal.lowered mark) then
      some (mark, rest)
    else none

/-- Reads the text literal that begins here. -/
def textLiteral (s : Scanner) (mark rest : List Char) : Except ScanFault (Lexeme × Scanner) :=
  let quote := rest.headD '"'
  let triple := rest.take 3 == [quote, quote, quote]
  let opening := rest.take (if triple then 3 else 1)
  let start := mark ++ opening
  match textBody quote triple (rest.drop opening.length) with
  | .ok (body, tail) =>
    let lexeme := start ++ body
    let after := s.advance lexeme tail
    .ok (⟨text lexeme, s.place, after.place⟩, after)
  | .error read =>
    let last := (s.advance (start ++ read) []).endLine
    let last := if triple then last else
      if read.getLast? == some '\n' then last else (Place.after s.place (start ++ read)).line
    .error (s.fault (if triple then .unterminatedTriple last else .unterminated last))

def threeCharOps : List String :=
  ["**=", "...", "//=", "<<=", ">>="]

def twoCharOps : List String :=
  ["!=", "%=", "&=", "**", "*=", "+=", "-=", "->", "//", "/=", ":=", "<<", "<=", "<>", "==",
    ">=", ">>", "@=", "^=", "|="]

/-- The operator at the beginning of a text, the longest that fits. -/
def operator (text : List Char) : List Char :=
  let fits := fun (n : Nat) (ops : List String) => ops.contains (String.ofList (text.take n))
  if fits 3 threeCharOps then text.take 3
  else if fits 2 twoCharOps then text.take 2
  else text.take 1

def closerOf (c : Char) : Char :=
  if c == '(' then ')' else if c == '[' then ']' else '\x7d'

def isOpener (c : Char) : Bool :=
  c == '(' || c == '[' || c == '\x7b'

def isCloser (c : Char) : Bool :=
  c == ')' || c == ']' || c == '\x7d'

/-- The brackets after an operator, which must close the innermost one if it closes any. -/
def nest (s : Scanner) (c : Char) : Except ScanFault (List (Char × Nat)) :=
  if isOpener c then
    if s.brackets.length ≥ bracketLimit then .error (s.fault .malformed)
    else .ok ((c, s.place.line) :: s.brackets)
  else if isCloser c then
    match s.brackets with
    | [] => .error (s.fault (.unmatched c))
    | (opening, line) :: outer =>
      if closerOf opening == c then .ok outer
      else .error ⟨.mismatched c opening line, s.place.line, outer⟩
  else .ok s.brackets

/-- A word: a keyword as it is spelled, or else a name in composed form. -/
def word (spelling : List Char) : Option Token :=
  let id := String.ofList spelling
  if keywords.contains id then some (keyword id)
  else if Text.isName spelling then some (name (Text.Compatibility.compose id))
  else none

/-- Reads the token that begins at a character other than a blank, a line end, a comment or a line
    continuation. -/
def next (s : Scanner) (c : Char) : Except ScanFault (Lexeme × Scanner) :=
  match textPrefix? s.rest with
  | some (mark, rest) => textLiteral s mark rest
  | none =>
    let single := fun (token : Token) (spelling rest : List Char) =>
      let after := s.advance spelling rest
      (⟨token, s.place, after.place⟩, after)
    if isWordChar c && !c.isDigit then
      let spelling := s.rest.takeWhile isWordChar
      match word spelling with
      | some token => .ok (single token spelling (s.rest.drop spelling.length))
      | none => .error (s.fault .malformed)
    else if c.isDigit || (c == '.' && (s.rest.tail.headD ' ').isDigit) then
      match number s.rest with
      | some (token, rest) => .ok (single token (s.rest.take (s.rest.length - rest.length)) rest)
      | none => .error (s.fault .malformed)
    else if !Text.isPrintable c then .error (s.fault .malformed)
    else
      let spelling := operator s.rest
      let brackets := if spelling.length = 1 then nest s c else .ok s.brackets
      brackets.map fun open' =>
        let (lexeme, after) := single (op (String.ofList spelling)) spelling
          (s.rest.drop spelling.length)
        (lexeme, { after with brackets := open' })

def isSpace (c : Char) : Bool :=
  c == ' ' || c == '\t' || c == '\x0c'

/-- A token of the layout, which takes no room. -/
def layoutAt (s : Scanner) (token : Token) : Lexeme :=
  ⟨token, s.place, s.place⟩

/-- The end of a text: a fault inside brackets. -/
def finish (s : Scanner) : Scan :=
  if s.brackets.isEmpty then ⟨[], none⟩ else ⟨[], some ⟨.endOfText, s.endLine, s.brackets⟩⟩

/-- Moves over a line without tokens, with its comment if it has one. -/
def Scanner.skipLine (s : Scanner) : Scanner :=
  match s.rest.dropWhile (· != '\n') with
  | [] => s.advance s.rest []
  | c :: rest =>
    let line := s.rest.takeWhile (· != '\n')
    { s.advance (line ++ [c]) rest with atLineStart := true }

/-- Reads on to the end of the text. Each step moves over a character or ends the scan, so the
    first argument need only exceed their number. -/
def scanFrom : Nat → Scanner → Scan
  | 0, s => ⟨[], some (s.fault .malformed)⟩
  | fuel + 1, s =>
    if s.atLineStart then
      match measure 0 0 none s.rest with
      | .error kind => ⟨[], some (s.fault kind)⟩
      | .ok margin =>
        let after := s.advance margin.blanks margin.rest
        match margin.rest with
        | '#' :: _ => scanFrom fuel after.skipLine
        | '\n' :: _ => scanFrom fuel after.skipLine
        | _ =>
          if s.brackets.isEmpty then
            let (width, narrow) := margin.fixed.getD (margin.width, margin.narrow)
            match layout width narrow s.indents with
            | none => ⟨[], some (after.fault .layout)⟩
            | some (tokens, indents) =>
              Scan.before (tokens.map (layoutAt after)) (scanFrom fuel { after with indents })
          else scanFrom fuel after
    else
      let blanks := s.rest.takeWhile isSpace
      let here := s.advance blanks (s.rest.dropWhile isSpace)
      match here.rest with
      | [] => finish here
      | '#' :: _ =>
        let comment := here.rest.takeWhile (· != '\n')
        scanFrom fuel (here.advance comment (here.rest.dropWhile (· != '\n')))
      | '\n' :: rest =>
        let after := { here.advance ['\n'] rest with atLineStart := true }
        if here.brackets.isEmpty then
          Scan.before [⟨newline, here.place, here.place⟩] (scanFrom fuel after)
        else scanFrom fuel after
      | '\\' :: '\n' :: rest =>
        if rest.isEmpty then ⟨[], some ⟨.endOfText, here.place.line, here.brackets⟩⟩
        else scanFrom fuel (here.advance ['\\', '\n'] rest)
      | '\\' :: _ => ⟨[], some (here.fault .layout)⟩
      | c :: _ =>
        match next here c with
        | .error reason => ⟨[], some reason⟩
        | .ok (lexeme, after) => Scan.before [lexeme] (scanFrom fuel after)

/-- The tokens of a text whose line ends are line feeds. -/
def scan (text : List Char) : Scan :=
  scanFrom (2 * text.length + 2) ⟨text, ⟨1, 0⟩, [(0, 0)], [], true⟩

end TableAudit.Token
