import TableAudit.Text.Blank
import TableAudit.Text.Margin
import TableAudit.Grammar.Basic

namespace TableAudit.Grammar

/-- What is wrong with a text. All faults but these count as one. -/
inductive FaultReason
  | neverClosed (bracket : Char)
  | unmatched (bracket : Char)
  | mismatched (closing opening : Char) (openLine : Option Nat)
  | unterminated (endLine : Nat)
  | unterminatedTriple (endLine : Nat)
  | unexpectedIndent
  | invalid
deriving DecidableEq, Repr

/-- A fault with its line and the text of that line. -/
structure SyntaxFault where
  reason : FaultReason
  line : Nat
  text : String
deriving DecidableEq, Repr

def FaultReason.message : FaultReason → String
  | neverClosed bracket => "'" ++ bracket.toString ++ "' was never closed"
  | unmatched bracket => "unmatched '" ++ bracket.toString ++ "'"
  | mismatched closing opening openLine =>
    "closing parenthesis '" ++ closing.toString ++ "' does not match opening parenthesis '" ++
      opening.toString ++ "'" ++
      match openLine with
      | some line => " on line " ++ toString line
      | none => ""
  | unterminated endLine =>
    "unterminated string literal (detected at line " ++ toString endLine ++ ")"
  | unterminatedTriple endLine =>
    "unterminated triple-quoted string literal (detected at line " ++ toString endLine ++ ")"
  | unexpectedIndent => "unexpected indent"
  | invalid => ""

/-- The text of a line without the blanks around it. -/
def lineText (text : List Char) (line : Nat) : String :=
  String.ofList (Text.strip ((Text.lines text).getD (line - 1) []))

/-- What a fault of the scan says where it is reported. Where brackets are open, the end of the
    text is the fault of the innermost one. -/
def scanReason (fault : ScanFault) : FaultReason × Nat :=
  match fault.kind with
  | .unmatched bracket => (.unmatched bracket, fault.line)
  | .mismatched closing opening openLine =>
    (.mismatched closing opening (if openLine = fault.line then none else some openLine),
      fault.line)
  | .unterminated endLine => (.unterminated endLine, fault.line)
  | .unterminatedTriple endLine => (.unterminatedTriple endLine, fault.line)
  | .malformed => (.invalid, fault.line)
  | .layout => (.invalid, fault.line)
  | .endOfText =>
    match fault.brackets with
    | (bracket, line) :: _ => (.neverClosed bracket, line)
    | [] => (.invalid, fault.line)

/-- Whether a fault of the scan is reported wherever the grammar failed before it. -/
def outweighs (kind : FaultKind) : Bool :=
  match kind with
  | .endOfText | .layout => false
  | _ => true

/-- The line of a token, or of the last one where the text ended. -/
def tokenLine (scan : Scan) (index : Nat) : Nat :=
  match scan.lexemes[index]? with
  | some lexeme => lexeme.start.line
  | none => (scan.lexemes.getLast?.map fun lexeme => lexeme.stop.line).getD 1

/-- The reason for a failure of the grammar. The reader is run once more to see whether the text
    goes on to its end where a missing comma is overlooked. -/
def failureReason (scan : Scan) (failure : Failure) (probe : Unit → Option Failure) :
    FaultReason × Nat :=
  let line := tokenLine scan failure.index
  let unexpectedLayout :=
    match scan.lexemes[failure.index]?.map Lexeme.token with
    | some .indent => some (FaultReason.unexpectedIndent, line)
    | some .dedent => some (FaultReason.invalid, line)
    | _ => none
  match scan.fault with
  | none => if failure.judged then (.invalid, line) else unexpectedLayout.getD (.invalid, line)
  | some fault =>
    if failure.atFault then scanReason fault
    else
      match failure.judged, unexpectedLayout with
      | false, some found => found
      | _, _ =>
        if outweighs fault.kind then scanReason fault
        else
          match fault.brackets with
          | [] => (.invalid, line)
          | (bracket, openLine) :: _ =>
            if openLine < line then (.neverClosed bracket, openLine)
            else
              match probe () with
              | some further =>
                if further.atFault then scanReason fault
                else if openLine < tokenLine scan further.index then (.neverClosed bracket, openLine)
                else (.invalid, line)
              | none => (.invalid, line)

end TableAudit.Grammar
