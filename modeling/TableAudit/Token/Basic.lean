namespace TableAudit

/-- A token. Names are in composed form; a text literal keeps its prefix and its quotes. The
    last two stand for the end of the text and for a place where it cannot be read on. -/
inductive Token
  | name (id : String)
  | keyword (word : String)
  | int (value : Nat)
  | float (value : Float)
  | imaginary (value : Float)
  | text (lexeme : List Char)
  | op (symbol : String)
  | newline
  | indent
  | dedent
  | stop
  | fault
deriving Inhabited

namespace Token

/-- The tokens that say how lines are laid out and have no text of their own. -/
def isLayout : Token → Bool
  | newline | indent | dedent | stop | fault => true
  | _ => false

def isOp (symbol : String) : Token → Bool
  | op s => s == symbol
  | _ => false

def isKeyword (word : String) : Token → Bool
  | keyword w => w == word
  | _ => false

def isName : Token → Bool
  | name _ => true
  | _ => false

def isText : Token → Bool
  | text _ => true
  | _ => false

end Token

/-- The words that are never names. -/
def keywords : List String :=
  ["False", "None", "True", "and", "as", "assert", "async", "await", "break", "class",
    "continue", "def", "del", "elif", "else", "except", "finally", "for", "from", "global",
    "if", "import", "in", "is", "lambda", "nonlocal", "not", "or", "pass", "raise", "return",
    "try", "while", "with", "yield"]

/-- A place in a text: its line, counted from one, and the characters before it on that line. -/
structure Place where
  line : Nat
  column : Nat
deriving DecidableEq, Repr, Inhabited

/-- The place after a text that begins at a place. -/
def Place.after (place : Place) (text : List Char) : Place :=
  text.foldl (fun p c => if c == '\n' then ⟨p.line + 1, 0⟩ else ⟨p.line, p.column + 1⟩) place

/-- A token with the places where it begins and ends. -/
structure Lexeme where
  token : Token
  start : Place
  stop : Place
deriving Inhabited

/-- Why a text cannot be read on. The first four have a text of their own; for the others only
    the fact matters. The last two do not outweigh a fault found before them. -/
inductive FaultKind
  | unmatched (bracket : Char)
  | mismatched (closing opening : Char) (openLine : Nat)
  | unterminated (endLine : Nat)
  | unterminatedTriple (endLine : Nat)
  | malformed
  | endOfText
  | layout
deriving DecidableEq, Repr

/-- A fault, its line, and the brackets that are open there with their lines, innermost first. -/
structure ScanFault where
  kind : FaultKind
  line : Nat
  brackets : List (Char × Nat)
deriving DecidableEq, Repr

/-- The tokens of a text up to its end or to the first fault. -/
structure Scan where
  lexemes : List Lexeme
  fault : Option ScanFault
deriving Inhabited

/-- The tokens as the grammar reads them: with their end, and without their places. -/
def Scan.tokens (scan : Scan) : List Token :=
  scan.lexemes.map Lexeme.token ++ [if scan.fault.isSome then .fault else .stop]

/-- A scan with more lexemes in front. -/
def Scan.before (lexemes : List Lexeme) (scan : Scan) : Scan :=
  ⟨lexemes ++ scan.lexemes, scan.fault⟩

end TableAudit
