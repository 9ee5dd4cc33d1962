import TableAudit.Grammar.Text
import TableAudit.Text.Lines

namespace TableAudit

/-- What a statement is to a block: an expression that may declare a check, nothing, or something
    that is no declaration. -/
inductive Form
  | expression (value : Expr)
  | pass
  | other
deriving Inhabited

/-- A statement with the line it begins on and its text. -/
structure Statement where
  form : Form
  line : Nat
  text : String
deriving Inhabited

namespace Statement

/-- A statement that declares nothing and is no mistake: `pass`, or a text by itself. -/
def isIgnorable (s : Statement) : Bool :=
  match s.form with
  | .pass => true
  | .expression e => e.text?.isSome
  | .other => false

end Statement

def Stmt.form : Stmt → Form
  | expr _ value => .expression value
  | pass _ => .pass
  | _ => .other

/-- The piece of a text that an extent of its tokens covers. -/
def Extent.text (extent : Extent) (scan : Scan) (source : List Char) : List Char :=
  match scan.lexemes[extent.first]?, scan.lexemes[extent.last - 1]? with
  | some first, some last =>
    Text.between source first.start.line first.start.column last.stop.line last.stop.column
  | _, _ => []

def Extent.line (extent : Extent) (scan : Scan) : Nat :=
  (scan.lexemes[extent.first]?.map fun lexeme => lexeme.start.line).getD 1

/-- A statement of a text with its place resolved. -/
def Stmt.resolve (scan : Scan) (source : List Char) (s : Stmt) : Statement :=
  ⟨s.form, s.extent.line scan, String.ofList (s.extent.text scan source)⟩

/-- The statements of a text whose margin was removed. -/
def Statement.ofText (named : String → Option Char) (source : List Char) :
    Except Grammar.SyntaxFault (List Statement) :=
  (Grammar.readBlock named source).map fun (body, scan) => body.map (Stmt.resolve scan source)

end TableAudit
