import TableAudit.Text.Lines

namespace TableAudit.Text.Margin

def isIndent (c : Char) : Bool :=
  c == ' ' || c == '\t'

/-- A line of nothing but spaces and tabs has no text. -/
def clearBlank (line : List Char) : List Char :=
  if line.all isIndent then [] else line

/-- The spaces and tabs before the text of a line. -/
def indentOf (line : List Char) : List Char :=
  line.takeWhile isIndent

/-- The longest beginning that two texts share. -/
def commonStart : List Char → List Char → List Char
  | a :: as, b :: bs => if a == b then a :: commonStart as bs else []
  | _, _ => []

/-- The margin that all lines with text share; none where no line has text. -/
def margin (rows : List (List Char)) : List Char :=
  match (rows.filter fun line => !line.isEmpty).map indentOf with
  | [] => []
  | first :: others => others.foldl commonStart first

/-- The text without its margin. -/
def remove (text : List Char) : List Char :=
  let rows := (lines text).map clearBlank
  let width := (margin rows).length
  unlines (rows.map fun line => line.drop width)

end TableAudit.Text.Margin
