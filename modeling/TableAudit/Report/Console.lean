import TableAudit.Report.Layout
import TableAudit.Report.Terminal
import TableAudit.Text.Lines
import TableAudit.Text.Width

namespace TableAudit.Report

def Emphasis.code : Emphasis → Nat
  | bold => 1
  | dim => 2

def Colour.code : Colour → Nat
  | red => 31
  | green => 32
  | blue => 34
  | cyan => 36

/-- The codes of a style, the emphasis first. -/
def Style.codes (style : Style) : List Nat :=
  (style.emphasis.map Emphasis.code).toList ++ (style.colour.map Colour.code).toList

/-- The cell of the next tab stop after a cell. -/
def nextStop (cell : Nat) : Nat :=
  (cell / 8 + 1) * 8

/-- The pieces of a text that begins at a cell, and the cell after it. Each piece but the last ends
    with a tab that has become blanks. -/
def expandTabs : Nat → List Char → List (List Char) × Nat
  | cell, [] => ([[]], cell)
  | cell, c :: rest =>
    if c == '\t' then
      let (pieces, last) := expandTabs (nextStop cell) rest
      (List.replicate (nextStop cell - cell) ' ' :: pieces, last)
    else
      let (pieces, last) := expandTabs (cell + Text.width c) rest
      (Text.pushFirst c pieces, last)

/-- A piece as it is written: in its style if colours are shown. Nothing is written for an empty
    piece. -/
def pieceText (colours : Bool) (style : Style) (piece : List Char) : String :=
  let text := String.ofList piece
  let codes := style.codes
  if piece.isEmpty || !colours || codes.isEmpty then text
  else "\x1b[" ++ joinWith ";" (codes.map toString) ++ "m" ++ text ++ "\x1b[0m"

/-- One line of a fragment that begins at a cell, as it is written, and the cell after it. -/
def rowText (colours : Bool) (style : Style) (cell : Nat) (row : List Char) : String × Nat :=
  let (pieces, last) := expandTabs cell row
  (String.join (pieces.map (pieceText colours style)), last)

/-- The lines of a fragment that begins at a cell, as they are written, and the cell after it. -/
def rowsText (colours : Bool) (style : Style) : Nat → List (List Char) → String × Nat
  | cell, [] => ("", cell)
  | cell, [row] => rowText colours style cell row
  | cell, row :: rest =>
    let (first, _) := rowText colours style cell row
    let (others, last) := rowsText colours style 0 rest
    (first ++ "\n" ++ others, last)

/-- The fragments of a line from a cell on, as they are written. -/
def fragmentsText (colours : Bool) : Nat → List Fragment → String
  | _, [] => ""
  | cell, fragment :: rest =>
    let (first, last) := rowsText colours fragment.style cell (Text.lines (kept fragment.text.toList))
    first ++ fragmentsText colours last rest

/-- A line as it is written to a terminal. -/
def Line.written (colours : Bool) (line : Line) : String :=
  fragmentsText colours 0 line ++ "\n"

/-- Lines as they are written to a terminal that is wide enough for their blanks. -/
def written (colours : Bool) (lines : List Line) : String :=
  String.join (lines.map (Line.written colours))

/-- The library, as far as lines are shown without colours. -/
def Terminal.colourless : Terminal where
  Text := Line
  assemble line := line
  plain line := String.ofList (kept (Line.plain line).toList)
  print _ := Line.written false

end TableAudit.Report
