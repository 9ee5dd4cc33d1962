namespace TableAudit.Text

/-- Puts a character in front of the first line. -/
def pushFirst (c : Char) : List (List Char) → List (List Char)
  | [] => [[c]]
  | line :: rest => (c :: line) :: rest

/-- The lines of a text with their ends. -/
def keepLines : List Char → List (List Char)
  | [] => []
  | '\r' :: '\n' :: rest => ['\r', '\n'] :: keepLines rest
  | c :: rest =>
    if c == '\n' || c == '\r' then [c] :: keepLines rest
    else
      match rest with
      | [] => [[c]]
      | _ => pushFirst c (keepLines rest)

theorem flatten_pushFirst (c : Char) (rows : List (List Char)) :
    (pushFirst c rows).flatten = c :: rows.flatten := by
  cases rows <;> simp [pushFirst]

/-- The lines of a text between its line feeds. -/
def lines : List Char → List (List Char)
  | [] => [[]]
  | c :: rest => if c == '\n' then [] :: lines rest else pushFirst c (lines rest)

/-- The text of its lines. -/
def unlines : List (List Char) → List Char
  | [] => []
  | [line] => line
  | line :: others => line ++ '\n' :: unlines others

/-- The characters that end a line wherever lines are shown: the controls that move down, three
    separators of information, the next line, and the separators of lines and paragraphs. -/
def endsRow (c : Char) : Bool :=
  let code := c.toNat
  (10 ≤ code && code ≤ 13) || (28 ≤ code && code ≤ 30) || code == 0x85 || code == 0x2028 ||
    code == 0x2029

/-- The rows of a text without their ends; nothing after the last end is no row. -/
def shownRows : List Char → List (List Char)
  | [] => []
  | '\r' :: '\n' :: rest => [] :: shownRows rest
  | c :: rest => if endsRow c then [] :: shownRows rest else pushFirst c (shownRows rest)

/-- The piece of a text from one place to another: lines counted from one, and columns of
    characters. -/
def between (text : List Char) (startLine startColumn stopLine stopColumn : Nat) : List Char :=
  let rows := keepLines text
  let row := fun (line : Nat) => rows.getD (line - 1) []
  if startLine = stopLine then ((row startLine).take stopColumn).drop startColumn
  else
    (row startLine).drop startColumn ++
      ((rows.drop startLine).take (stopLine - startLine - 1)).flatten ++
      (row stopLine).take stopColumn

end TableAudit.Text
