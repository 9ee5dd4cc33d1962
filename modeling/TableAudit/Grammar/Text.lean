import TableAudit.Grammar.Fault
import TableAudit.Grammar.Statement
import TableAudit.Token.Lexer

namespace TableAudit.Grammar

/-- Reads an expression in the replacement field of a formatted text, as if in parentheses. -/
def embeddedIn (g : Rules) (source : List Char) : Option Expr :=
  let scan := Token.scan (Token.closeLastLine ('(' :: source ++ [')']))
  match starExpressions g ⟨scan.tokens, 0, 0, false⟩ with
  | .ok (e, _) => some e
  | .error _ => none

/-- The rules, tied to themselves to a depth, with the characters that escapes can call by name. Each
    of them ties the next ones only when it is read by. -/
def rules (named : String → Option Char) : Nat → Rules
  | 0 =>
    { named
      expression := unexpected
      factor := unexpected
      primary := unexpected
      pattern := unexpected
      statements := unexpected
      embedded := fun _ => none }
  | depth + 1 =>
    { named
      expression := fun input => expression (rules named depth) input
      factor := fun input => factor (rules named depth) input
      primary := fun input => primary (rules named depth) input
      pattern := fun input => pattern (rules named depth) input
      statements := fun input => statements (rules named depth) input
      embedded := fun source => embeddedIn (rules named depth) source }

/-- The greatest depth of the grammar. Texts recur no more than twice for each of their characters,
    so it is beyond all texts of less than two thousand million characters. -/
def depthLimit : Nat := 4294967296

/-- A whole text of statements. -/
def wholeBlock (g : Rules) : Reader (List Stmt) := do
  match ← peek with
  | .stop => return []
  | _ =>
    let body ← statements g
    match ← peek with
    | .stop => return body
    | _ => unexpected

/-- A whole text of one expression, or of expressions with commas between them. -/
def wholeExpression (g : Rules) : Reader Expr := do
  let (items, comma) ← commaSeparated g.expression endsSequence
  let skip := fun (_ : Unit) => do
    return ((), ← takeIf isNewline)
  repeatStep skip ()
  match ← peek with
  | .stop => return tupleOrItem items comma
  | _ => unexpected

/-- Reads a text whose line ends are line feeds, by rules that are tied to a depth. -/
def readTextAt {α : Type} (named : String → Option Char) (depth : Nat) (text : List Char)
    (reader : Rules → Reader α) : Except SyntaxFault (α × Scan) :=
  let scan := Token.scan text
  let g := rules named depth
  let run := fun (probing : Bool) => reader g ⟨scan.tokens, 0, 0, probing⟩
  match run false with
  | .ok (answer, _) => .ok (answer, scan)
  | .error failure =>
    let probe := fun (_ : Unit) =>
      match run true with
      | .ok _ => none
      | .error further => some further
    let (reason, line) := failureReason scan failure probe
    .error ⟨reason, line, lineText text line⟩

def readText {α : Type} (named : String → Option Char) (text : List Char)
    (reader : Rules → Reader α) : Except SyntaxFault (α × Scan) :=
  readTextAt named depthLimit text reader

/-- Reads a block of statements. -/
def readBlock (named : String → Option Char) (text : List Char) :
    Except SyntaxFault (List Stmt × Scan) :=
  readText named (Token.closeLastLine (Token.normalizeLineEnds text)) wholeBlock

/-- Reads the text of a definition. Its body is one level deeper than a text by itself. -/
def readDefinition (named : String → Option Char) (text : List Char) :
    Except SyntaxFault (List Stmt × Scan) :=
  readTextAt named (depthLimit + 1) (Token.closeLastLine (Token.normalizeLineEnds text)) wholeBlock

/-- Reads one expression. -/
def readExpression (named : String → Option Char) (text : List Char) :
    Except SyntaxFault (Expr × Scan) :=
  readText named (Token.normalizeLineEnds text) wholeExpression

/-- Whether a parenthesis that opens a sequence of tokens is closed by the last of them. -/
def isWrapped (tokens : List Token) : Bool :=
  match tokens with
  | .op "(" :: rest =>
    let step := fun (state : Nat × Bool) (token : Token) =>
      let (depth, wrapped) := state
      match token with
      | .op symbol =>
        if ["(", "[", "\x7b"].contains symbol then (depth + 1, wrapped && 0 < depth)
        else if [")", "]", "\x7d"].contains symbol then (depth - 1, wrapped && 0 < depth)
        else (depth, wrapped && 0 < depth)
      | _ => (depth, wrapped && 0 < depth)
    let (depth, wrapped) := rest.foldl step (1, true)
    wrapped && depth = 0
  | _ => false

/-- How many pairs of parentheses enclose all of a sequence of tokens. -/
def wrappings : Nat → List Token → Nat
  | 0, _ => 0
  | fuel + 1, tokens =>
    if isWrapped tokens then wrappings fuel (tokens.tail.dropLast) + 1 else 0

/-- The line on which an expression begins. Parentheses belong to it only where they make it a
    tuple or a comprehension. -/
def firstLine (scan : Scan) (e : Expr) : Nat :=
  let lexemes := scan.lexemes.filter fun lexeme => !lexeme.token.isLayout
  let tokens := lexemes.map Lexeme.token
  let outer := wrappings tokens.length tokens
  let own :=
    match e with
    | .tuple _ => 1
    | .comprehension .round _ _ => 1
    | _ => 0
  ((lexemes.drop (outer - own)).head?.map fun lexeme => lexeme.start.line).getD 1

end TableAudit.Grammar
