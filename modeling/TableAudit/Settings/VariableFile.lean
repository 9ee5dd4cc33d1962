import TableAudit.Labelled
import TableAudit.Text.Blank
import TableAudit.Text.Lines

namespace TableAudit.VariableFile

/-- A text in which the line feed alone ends lines. -/
def plainLines : List Char → List Char
  | '\r' :: '\n' :: rest => '\n' :: plainLines rest
  | '\r' :: rest => '\n' :: plainLines rest
  | c :: rest => c :: plainLines rest
  | [] => []

/-- A blank within a line. -/
def isSpace (c : Char) : Bool :=
  Text.isBlank c && c != '\n' && c != '\r'

def skipSpaces (text : List Char) : List Char :=
  text.dropWhile isSpace

/-- What is left of a text after a word that stands in front of a blank, and after the blanks. -/
def skipWord (word : String) (text : List Char) : List Char :=
  if word.toList.isPrefixOf text then
    let rest := text.drop word.length
    match rest with
    | c :: _ => if isSpace c then skipSpaces rest else text
    | [] => text
  else text

/-- The text up to the end of the line, and what follows the end. -/
def restOfLine (text : List Char) : List Char :=
  (text.dropWhile (· != '\n')).drop 1

/-- Whether a character can stand in a name without quotes. -/
def isNamePart (c : Char) : Bool :=
  !Text.isBlank c && c != '=' && c != '#'

/-- What stands before the closing quote, and what follows it. A quote behind a backslash does not
    close, unless no other does. -/
def quoted (mark : Char) : List Char → Option (List Char × List Char)
  | [] => none
  | '\\' :: c :: rest =>
    if c == mark then
      match quoted mark rest with
      | some (body, tail) => some ('\\' :: c :: body, tail)
      | none => some (['\\'], rest)
    else (quoted mark (c :: rest)).map fun (body, tail) => ('\\' :: body, tail)
  | c :: rest =>
    if c == mark then some ([], rest)
    else (quoted mark rest).map fun (body, tail) => (c :: body, tail)

/-- The character that a letter behind a backslash stands for, between quotes of a kind. -/
def escaped? (mark letter : Char) : Option Char :=
  if letter == '\\' || letter == '\'' then some letter
  else if mark == '\'' then none
  else
    match letter with
    | '"' => some '"'
    | 'a' => some '\x07'
    | 'b' => some '\x08'
    | 'f' => some '\x0c'
    | 'n' => some '\n'
    | 'r' => some '\r'
    | 't' => some '\t'
    | 'v' => some '\x0b'
    | _ => none

/-- A quoted value with its escapes resolved. -/
def unescape (mark : Char) : List Char → List Char
  | '\\' :: letter :: rest =>
    match escaped? mark letter with
    | some c => c :: unescape mark rest
    | none => '\\' :: unescape mark (letter :: rest)
  | c :: rest => c :: unescape mark rest
  | [] => []

/-- A value without quotes, up to a comment: a number sign behind a blank. -/
def beforeComment : List Char → List Char
  | [] => []
  | c :: '#' :: rest => if Text.isBlank c then [] else c :: beforeComment ('#' :: rest)
  | c :: rest => c :: beforeComment rest

def dropBlanksAtEnd (text : List Char) : List Char :=
  (text.reverse.dropWhile Text.isBlank).reverse

/-- A step that reads a part of a line; a failure says where the reading stopped. -/
abbrev Step :=
  Except (List Char)

def readName (text : List Char) : Step (Option String × List Char) :=
  match text with
  | '#' :: _ => .ok (none, text)
  | '\'' :: rest =>
    match rest.takeWhile (· != '\''), rest.dropWhile (· != '\'') with
    | [], _ => .error text
    | _, [] => .error text
    | name, _ :: tail => .ok (some (String.ofList name), tail)
  | _ =>
    match text.takeWhile isNamePart with
    | [] => .error text
    | name => .ok (some (String.ofList name), text.dropWhile isNamePart)

def readQuoted (mark : Char) (text rest : List Char) : Step (String × List Char) :=
  match quoted mark rest with
  | some (body, tail) => .ok (String.ofList (unescape mark body), tail)
  | none => .error text

def readValue (text : List Char) : Step (String × List Char) :=
  match text with
  | '\'' :: rest => readQuoted '\'' text rest
  | '"' :: rest => readQuoted '"' text rest
  | _ =>
    let value := dropBlanksAtEnd (beforeComment (text.takeWhile (· != '\n')))
    .ok (String.ofList value, text.dropWhile (· != '\n'))

/-- Passes over a comment, if there is one. -/
def skipComment (text : List Char) : List Char :=
  match skipSpaces text with
  | '#' :: rest => rest.dropWhile (· != '\n')
  | _ => text

/-- Nothing but blanks may be left of a line. -/
def endLine (text : List Char) : Step (List Char) :=
  match skipSpaces text with
  | [] => .ok []
  | '\n' :: rest => .ok rest
  | _ => .error text

/-- Reads one line. A name may stand alone, without a value. -/
def readLine (text : List Char) : Step (Option (String × Option String) × List Char) := do
  let (name, text) ← readName (skipWord "export" text)
  let (value, text) ←
    match skipSpaces text with
    | '=' :: rest => do
      let (value, rest) ← readValue (skipSpaces rest)
      pure (some value, rest)
    | rest => pure (none, rest)
  let text ← endLine (skipComment text)
  return (name.map fun name => (name, value), text)

/-- The lines of a text, as many at most as the number says. -/
def readLines : Nat → List Char → List (String × Option String)
  | 0, _ => []
  | fuel + 1, text =>
    match text.dropWhile Text.isBlank with
    | [] => []
    | text =>
      match readLine text with
      | .ok (line, rest) => line.toList ++ readLines fuel rest
      | .error rest => readLines fuel (restOfLine rest)

/-- The names of a file with their values, as they are written. -/
def read (text : String) : List (String × Option String) :=
  let text := plainLines text.toList
  readLines (text.length + 1) text

/-- A reference behind a dollar sign: the name, what stands for it if there is no such name, and the
    rest of the text. -/
def reference? (text : List Char) : Option (String × String × List Char) :=
  match text with
  | '{' :: rest =>
    let name := rest.takeWhile fun c => c != '}' && c != ':'
    match rest.drop name.length with
    | '}' :: tail => some (String.ofList name, "", tail)
    | ':' :: '-' :: tail =>
      let other := tail.takeWhile (· != '}')
      match tail.drop other.length with
      | '}' :: tail => some (String.ofList name, String.ofList other, tail)
      | _ => none
    | _ => none
  | _ => none

/-- A value with its references replaced; a name without a value stands for nothing. -/
def expand (known : Labelled (Option String)) : Nat → List Char → List Char
  | 0, text => text
  | _, [] => []
  | fuel + 1, c :: rest =>
    if c == '$' then
      match reference? rest with
      | some (name, other, tail) =>
        let value := ((known.get? name).getD (some other)).getD ""
        value.toList ++ expand known fuel tail
      | none => c :: expand known fuel rest
    else c :: expand known fuel rest

/-- The variables of a file. A value may refer to those before it, and to the environment. -/
def resolve (environment : Labelled String) :
    Labelled (Option String) → List (String × Option String) → Labelled (Option String)
  | done, [] => done
  | done, (name, value) :: rest =>
    let known :=
      Labelled.ofList
        (environment.entries.map (fun entry => (entry.1, some entry.2)) ++ done.entries)
    let value := value.map fun text =>
      String.ofList (expand known (text.length + 1) text.toList)
    resolve environment (done.put name value) rest

/-- The variables of a text, by name. -/
def variablesOf (environment : Labelled String) (text : String) : Labelled (Option String) :=
  resolve environment .empty (read text)

end TableAudit.VariableFile
