import TableAudit.Expr.Basic
import TableAudit.Value.Literal

namespace TableAudit.Expr

/-- How tightly a place binds: an expression of a looser operator is put in parentheses. -/
inductive Level
  | assignment | tuple | yield | test | or | and | not | compare
  | bitOr | bitXor | bitAnd | shift | sum | term | factor | power | await | atom
deriving DecidableEq, Repr

namespace Level

def rank : Level → Nat
  | assignment => 1
  | tuple => 2
  | yield => 3
  | test => 4
  | or => 5
  | and => 6
  | not => 7
  | compare => 8
  | bitOr => 9
  | bitXor => 10
  | bitAnd => 11
  | shift => 12
  | sum => 13
  | term => 14
  | factor => 15
  | power => 16
  | await => 17
  | atom => 18

/-- The next tighter level; nothing is tighter than an atom. -/
def next : Level → Level
  | assignment => tuple
  | tuple => yield
  | yield => test
  | test => or
  | or => and
  | and => not
  | not => compare
  | compare => bitOr
  | bitOr => bitXor
  | bitXor => bitAnd
  | bitAnd => shift
  | shift => sum
  | sum => term
  | term => factor
  | factor => power
  | power => await
  | await => atom
  | atom => atom

end Level

/-- Puts a text in parentheses where its operator binds less tightly than its place. -/
def guarded (place operator : Level) (text : String) : String :=
  if operator.rank < place.rank then "(" ++ text ++ ")" else text

def opText : BinaryOp → String
  | .bitOr => "|"
  | .bitXor => "^"
  | .bitAnd => "&"
  | .shiftLeft => "<<"
  | .shiftRight => ">>"
  | .add => "+"
  | .subtract => "-"
  | .multiply => "*"
  | .matrix => "@"
  | .divide => "/"
  | .floorDivide => "//"
  | .modulo => "%"
  | .power => "**"

def opLevel : BinaryOp → Level
  | .bitOr => .bitOr
  | .bitXor => .bitXor
  | .bitAnd => .bitAnd
  | .shiftLeft | .shiftRight => .shift
  | .add | .subtract => .sum
  | .multiply | .matrix | .divide | .floorDivide | .modulo => .term
  | .power => .power

def compareText : CompareOp → String
  | .equal => "=="
  | .notEqual => "!="
  | .less => "<"
  | .lessEqual => "<="
  | .greater => ">"
  | .greaterEqual => ">="
  | .is => "is"
  | .isNot => "is not"
  | .isIn => "in"
  | .notIn => "not in"

/-- A float literal. An infinity is written as a decimal beyond the range of floats. -/
def printFloat (style : Decimal.Notation) (value : Float) : String :=
  { style with infinity := "1e309", nan := "(1e309-1e309)" }.write value

/-- The quotes that may enclose a text. -/
inductive QuoteMark
  | single | double | tripleDouble | tripleSingle
deriving DecidableEq, Repr

namespace QuoteMark

def text : QuoteMark → List Char
  | single => ['\'']
  | double => ['"']
  | tripleDouble => ['"', '"', '"']
  | tripleSingle => ['\'', '\'', '\'']

def mark : QuoteMark → Char
  | single | tripleSingle => '\''
  | double | tripleDouble => '"'

def isTriple : QuoteMark → Bool
  | tripleDouble | tripleSingle => true
  | _ => false

def all : List QuoteMark :=
  [single, double, tripleDouble, tripleSingle]

end QuoteMark

/-- Whether a text contains another. -/
def containsChars (part : List Char) : List Char → Bool
  | [] => part.isEmpty
  | c :: rest => part.isPrefixOf (c :: rest) || containsChars part rest

/-- One character of a text that is written with few escapes: line feeds and tabs may stay. -/
def sparingEscape (escapeSpace : Bool) (c : Char) : List Char :=
  if (c == '\n' || c == '\t') && !escapeSpace then [c]
  else if c == '\\' then ['\\', '\\']
  else if c == '\n' then ['\\', 'n']
  else if c == '\t' then ['\\', 't']
  else if c == '\r' then ['\\', 'r']
  else if Text.isPrintable c then [c]
  else Text.Quoted.numericEscape (Text.codePoint c)

/-- Writes the inside of a text with few escapes and narrows the quotes that may enclose it. With
    none left, the inside of the plain literal is taken. -/
def sparing (quotes : List QuoteMark) (escapeSpace : Bool) (text : List Char) :
    List Char × List QuoteMark :=
  let escaped := text.flatMap (sparingEscape escapeSpace)
  let fitting := quotes.filter fun q =>
    (q.isTriple || !escaped.contains '\n') && !containsChars q.text escaped
  match fitting with
  | [] =>
    let plain := Text.Quoted.encode text
    let mark := plain.headD '\''
    let quote := (quotes.find? fun q => q.mark == mark).getD
      (if mark == '"' then .double else .single)
    (plain.tail.dropLast, [quote])
  | _ =>
    match escaped.getLast? with
    | none => (escaped, fitting)
    | some last =>
      let sorted := (fitting.filter fun q => q.mark != last) ++
        (fitting.filter fun q => q.mark == last)
      let first := sorted.headD .single
      if first.mark == last then (escaped.dropLast ++ ['\\', last], sorted)
      else (escaped, sorted)

/-- A text without a backslash as far as possible. -/
def printSparing (text : List Char) : String :=
  let (inside, quotes) := sparing QuoteMark.all false text
  let quote := (quotes.headD .single).text
  String.ofList (quote ++ inside ++ quote)

def doubleBraces (text : List Char) : List Char :=
  text.flatMap fun c => if c == '\x7b' || c == '\x7d' then [c, c] else [c]

/-- The parts of a formatted text, each with whether it is a literal, in one pair of quotes that
    suits them all; with none, in triple quotes and with the escapes of a plain literal. -/
def printJoined (parts : List (List Char × Bool)) : String :=
  let step := fun (state : Option (List Char × List QuoteMark)) (part : List Char × Bool) =>
    state.bind fun (done, quotes) =>
      let (inside, narrowed) := sparing quotes part.2 part.1
      if narrowed.any quotes.contains then some (done ++ inside, narrowed) else none
  match parts.foldl step (some ([], QuoteMark.all)) with
  | some (inside, quotes) =>
    let quote := (quotes.headD .single).text
    String.ofList ('f' :: quote ++ inside ++ quote)
  | none =>
    let inside := parts.flatMap fun part => ((Text.Quoted.encode ('"' :: part.1)).drop 2).dropLast
    let quote := QuoteMark.tripleSingle.text
    String.ofList ('f' :: quote ++ inside ++ quote)

/-- Why an expression has no text: a number in it has too many digits, or the text of a replacement
    field would need a backslash, which it cannot hold. -/
inductive Obstacle
  | tooManyDigits | backslash
deriving DecidableEq, Repr

def Obstacle.message : Obstacle → String
  | tooManyDigits => Decimal.tooManyDigits
  | backslash => "Unable to avoid backslash in f-string expression part"

def printLiteral (inField : Bool) : Literal → Except Obstacle String
  | .text value marked =>
    .ok ((if marked then "u" else "") ++
      (if inField then printSparing value.toList else Text.Quoted.quote value))
  | .bytes value => .ok (Text.Quoted.quoteBytes value)
  | .int value => if Decimal.exceedsDigits value then .error .tooManyDigits else .ok (toString value)
  | .float value => .ok (printFloat Decimal.plainNotation value)
  | .imaginary value => .ok (printFloat Decimal.bareNotation value ++ "j")
  | .truth value => .ok (if value then "True" else "False")
  | .null => .ok "None"
  | .ellipsis => .ok "..."

/-- The names of the parameters with their defaults. -/
def printParams (params : Params) (keywordDefaults defaults : List String) : String :=
  let positional := params.slashed ++ params.plain
  let missing := positional.length - defaults.length
  let withDefault := positional.zip
    (List.replicate missing "" ++ defaults.map fun text => "=" ++ text)
  let written := withDefault.map fun param => param.1 ++ param.2
  let slashed := written.take params.slashed.length
  let plain := written.drop params.slashed.length
  let star :=
    match params.star with
    | some id => ["*" ++ id]
    | none => if params.keywords.isEmpty then [] else ["*"]
  let keyword := fun (state : List String × List String) (param : String × Bool) =>
    match param.2, state.2 with
    | true, text :: rest => (state.1 ++ [param.1 ++ "=" ++ text], rest)
    | _, rest => (state.1 ++ [param.1], rest)
  let keywords := (params.keywords.foldl keyword ([], keywordDefaults)).1
  let doubleStar := params.doubleStar.toList.map fun id => "**" ++ id
  joinWith ", " (slashed ++ (if params.slashed.isEmpty then [] else ["/"]) ++ plain ++ star ++
    keywords ++ doubleStar)

def printKeyword (key : Option String) (value : String) : String :=
  match key with
  | some id => id ++ "=" ++ value
  | none => "**" ++ value

/-- The items of a dictionary, from what its keys and values are printed as: keyed values take the
    keys in turn. -/
def printEntries :
    List Bool → List (Except Obstacle String) → List (Except Obstacle String) →
      Except Obstacle (List String)
  | true :: flags, key :: keys, value :: values => do
    let before ← key
    let after ← value
    return (before ++ ": " ++ after) :: (← printEntries flags keys values)
  | _ :: flags, keys, value :: values =>
    return ("**" ++ (← value)) :: (← printEntries flags keys values)
  | _, _, _ => return []

def items (texts : List String) : String :=
  match texts with
  | [text] => text ++ ","
  | _ => joinWith ", " texts

/-- A replacement field. A blank keeps the brace of a set or a dictionary from being read as a
    doubled one. -/
def fieldText (inside : String) (conversion : Option Char) (format : String) : String :=
  let gap := if inside.toList.head? == some '\x7b' then " " else ""
  let mark :=
    match conversion with
    | some c => String.ofList ['!', c]
    | none => ""
  braced (gap ++ inside ++ mark ++ format)

/-- A text for a replacement field, which has no backslash. -/
def withoutBackslash (text : String) : Except Obstacle String :=
  if text.contains '\\' then .error .backslash else .ok text

mutual

/-- Prints an expression for a place, its parts in the order in which they are written. Inside a
    replacement field texts are written with as few backslashes as possible. -/
def print (inField : Bool) (place : Level) : Expr → Except Obstacle String
  | name id => return id
  | literal value => printLiteral inField value
  | joined parts => do
    if inField then return "f" ++ printSparing (← printInside parts).toList
    else return printJoined (← printParts parts)
  | field value conversion format => do
    let inside ← withoutBackslash (← print true Level.test.next value)
    return fieldText inside conversion (← printFormat format)
  | member value attr => do
    let dot :=
      match value with
      | .literal (.int _) => " ."
      | .literal (.truth _) => " ."
      | _ => "."
    return (← print inField .atom value) ++ dot ++ attr
  | subscript value (tuple elements) => do
    let owner ← print inField .atom value
    let written ← printAll inField .test elements
    return owner ++ "[" ++ (if elements.isEmpty then "()" else items written) ++ "]"
  | subscript value index => do
    return (← print inField .atom value) ++ "[" ++ (← print inField .test index) ++ "]"
  | slice lower upper step => do
    let before ← printOptional inField lower
    let after ← printOptional inField upper
    let stride ←
      match step with
      | none => pure ""
      | some value => do pure (":" ++ (← print inField .test value))
    return before ++ ":" ++ after ++ stride
  | call function args names values => do
    let callee ← print inField .atom function
    let positional ← printAll inField .test args
    let keywords := names.zipWith printKeyword (← printAll inField .test values)
    return callee ++ "(" ++ joinWith ", " (positional ++ keywords) ++ ")"
  | starred value => return "*" ++ (← print inField .bitOr value)
  | assign target value => do
    let written ← print inField .atom target
    return guarded place .assignment (written ++ " := " ++ (← print inField .atom value))
  | boolean .and operands => do
    let written ← printRising inField Level.and.next operands
    return guarded place .and (joinWith " and " written)
  | boolean .or operands => do
    let written ← printRising inField Level.or.next operands
    return guarded place .or (joinWith " or " written)
  | unary .not operand => return guarded place .not ("not " ++ (← print inField .not operand))
  | unary .plus operand => return guarded place .factor ("+" ++ (← print inField .factor operand))
  | unary .minus operand => return guarded place .factor ("-" ++ (← print inField .factor operand))
  | unary .invert operand => return guarded place .factor ("~" ++ (← print inField .factor operand))
  | binary left op right => do
    let level := opLevel op
    let leftPlace := if op == .power then level.next else level
    let rightPlace := if op == .power then level else level.next
    let before ← print inField leftPlace left
    let after ← print inField rightPlace right
    return guarded place level (before ++ " " ++ opText op ++ " " ++ after)
  | compare left ops rest => do
    let first ← print inField Level.compare.next left
    let tail := ops.zipWith (fun op text => " " ++ compareText op ++ " " ++ text)
      (← printAll inField Level.compare.next rest)
    return guarded place .compare (first ++ joinWith "" tail)
  | lambda params keywordDefaults defaults body => do
    let defaults ← printAll inField .test defaults
    let keywordDefaults ← printAll inField .test keywordDefaults
    let written := printParams params keywordDefaults defaults
    let value ← print inField .test body
    return guarded place .test
      ("lambda" ++ (if written.isEmpty then "" else " " ++ written) ++ ": " ++ value)
  | conditional test body otherwise => do
    let value ← print inField Level.test.next body
    let condition ← print inField Level.test.next test
    return guarded place .test
      (value ++ " if " ++ condition ++ " else " ++ (← print inField .test otherwise))
  | tuple [] => return "()"
  | tuple elements => return guarded place .tuple (items (← printAll inField .test elements))
  | list elements => return "[" ++ joinWith ", " (← printAll inField .test elements) ++ "]"
  | set elements => return braced (joinWith ", " (← printAll inField .test elements))
  | dict keyed keys values =>
    return braced (joinWith ", "
      (← printEntries keyed (printKeys inField keys) (printValues inField keyed values)))
  | comprehension brackets element clauses => do
    let written ← print inField .test element
    let body := written ++ joinWith "" (← printAll inField .test clauses)
    match brackets with
    | .round => return "(" ++ body ++ ")"
    | .square => return "[" ++ body ++ "]"
    | .curly => return braced body
  | dictComprehension key value clauses => do
    let before ← print inField .test key
    let after ← print inField .test value
    return braced (before ++ ": " ++ after ++ joinWith "" (← printAll inField .test clauses))
  | clause isAsync target source conditions => do
    let bound ← print inField .tuple target
    let given ← print inField Level.test.next source
    let written ← printAll inField Level.test.next conditions
    return (if isAsync then " async for " else " for ") ++ bound ++ " in " ++ given ++
      joinWith "" (written.map fun text => " if " ++ text)
  | await value => return guarded place .await ("await " ++ (← print inField .atom value))
  | yield none => return guarded place .yield "yield"
  | yield (some value) => return guarded place .yield ("yield " ++ (← print inField .atom value))
  | yieldFrom value => return guarded place .yield ("yield from " ++ (← print inField .atom value))

/-- Prints each expression for the same place. -/
def printAll (inField : Bool) (place : Level) : List Expr → Except Obstacle (List String)
  | [] => return []
  | e :: rest => return (← print inField place e) :: (← printAll inField place rest)

/-- Prints the operands of a boolean operator: each stands one level tighter than the one before
    it. -/
def printRising (inField : Bool) (place : Level) : List Expr → Except Obstacle (List String)
  | [] => return []
  | e :: rest => return (← print inField place e) :: (← printRising inField place.next rest)

/-- What each key of a dictionary is printed as. -/
def printKeys (inField : Bool) : List Expr → List (Except Obstacle String)
  | [] => []
  | e :: rest => print inField .test e :: printKeys inField rest

/-- What each value of a dictionary is printed as; a spread one stands as an operand. -/
def printValues (inField : Bool) : List Bool → List Expr → List (Except Obstacle String)
  | flags, e :: rest =>
    print inField (if flags.headD true then .test else .bitOr) e ::
      printValues inField flags.tail rest
  | _, [] => []

def printOptional (inField : Bool) : Option Expr → Except Obstacle String
  | none => return ""
  | some e => print inField .test e

/-- The inside of a formatted text, not yet escaped. -/
def printInside : List Expr → Except Obstacle String
  | [] => return ""
  | part :: rest => return (← printPart part) ++ (← printInside rest)

/-- One part of a formatted text, not yet escaped. -/
def printPart : Expr → Except Obstacle String
  | joined parts => printInside parts
  | literal (.text value _) => return String.ofList (doubleBraces value.toList)
  | field value conversion format => do
    let inside ← withoutBackslash (← print true Level.test.next value)
    return fieldText inside conversion (← printFormat format)
  | _ => return ""

def printFormat : Option Expr → Except Obstacle String
  | none => return ""
  | some e => return ":" ++ (← printPart e)

/-- Each part of a formatted text, not yet escaped, with whether it is a literal. -/
def printParts : List Expr → Except Obstacle (List (List Char × Bool))
  | [] => return []
  | part :: rest => do
    let written ← printPart part
    return (written.toList, part.text?.isSome) :: (← printParts rest)

end

/-- The text of an expression that stands by itself. -/
def render (e : Expr) : Except Obstacle String :=
  e.print false .test

end TableAudit.Expr
