import TableAudit.Grammar.Expression

namespace TableAudit.Grammar

/-- A number with a sign or without, and perhaps an imaginary part after it. -/
def patternNumber : Reader Unit := do
  let isReal : Token → Bool := fun token =>
    match token with
    | .int _ | .float _ | .imaginary _ => true
    | _ => false
  let _ ← takeOp "-"
  expect isReal
  if (← nextIsOp "+") || (← nextIsOp "-") then
    let _ ← take
    expect fun token =>
      match token with
      | .imaginary _ => true
      | _ => false

/-- A name or a path of names; the answer says whether it is a path. -/
def patternPath : Reader Bool := do
  let _ ← expectName
  let step := fun (dotted : Bool) => do
    if ← takeOp "." then
      let _ ← expectName
      return (true, true)
    else return (dotted, false)
  repeatStep step false

/-- Patterns with commas between them up to a closing token. -/
def patternItems (item : Reader Unit) (close : String) : Reader Unit := do
  if ← takeOp close then return ()
  else
    let _ ← commaSeparated item (Token.isOp close)
    expectOp close

def starPattern (g : Rules) : Reader Unit := do
  if ← takeOp "*" then
    let _ ← expectName
  else g.pattern

/-- The arguments of a class pattern: named ones come last. -/
def classArguments (g : Rules) : Reader Unit := do
  let step := fun (named : Bool) => do
    if ← nextIsOp ")" then return (named, false)
    else
      let named ← (do
        match keywordName (← peek) (← peekSecond) with
        | some _ =>
          let _ ← take
          let _ ← take
          g.pattern
          return true
        | none =>
          if named then unexpected
          else
            g.pattern
            return false)
      return (named, ← takeOp ",")
  let _ ← repeatStep step false
  expectOp ")"

/-- The key of a mapping pattern: a literal or a path of names. -/
def patternKey (g : Rules) : Reader Unit := do
  match ← peek with
  | .text _ =>
    let _ ← textLiteral g
  | .keyword word =>
    if ["None", "True", "False"].contains word then
      let _ ← take
    else unexpected
  | .name _ => if ← patternPath then return () else unexpected
  | _ => patternNumber

def mappingEntry (g : Rules) : Reader Unit := do
  if ← takeOp "**" then
    let _ ← expectName
  else
    patternKey g
    expectOp ":"
    g.pattern

def closedPattern (g : Rules) : Reader Unit := do
  match ← peek with
  | .text _ =>
    let _ ← textLiteral g
  | .keyword word =>
    if ["None", "True", "False"].contains word then
      let _ ← take
    else unexpected
  | .name _ =>
    let _ ← patternPath
    if ← takeOp "(" then classArguments g
  | .op "(" =>
    let _ ← take
    patternItems (starPattern g) ")"
  | .op "[" =>
    let _ ← take
    patternItems (starPattern g) "]"
  | .op "\x7b" =>
    let _ ← take
    patternItems (mappingEntry g) "\x7d"
  | _ => patternNumber

/-- Alternatives, and perhaps a name for what was matched. -/
def pattern (g : Rules) : Reader Unit := do
  let step := fun (_ : Unit) => do
    if ← takeOp "|" then
      closedPattern g
      return ((), true)
    else return ((), false)
  closedPattern g
  repeatStep step ()
  if ← takeKeyword "as" then
    let _ ← expectName

def beginsPattern (token : Token) : Bool :=
  match token with
  | .name _ | .int _ | .float _ | .imaginary _ | .text _ => true
  | .keyword word => ["None", "True", "False"].contains word
  | .op symbol => ["(", "[", "\x7b", "-", "*"].contains symbol
  | _ => false

/-- A pattern, or a sequence of patterns without brackets. -/
def openPattern (g : Rules) : Reader Unit := do
  let starred ← nextIsOp "*"
  let (items, comma) ← commaSeparated (starPattern g) fun token => !beginsPattern token
  if starred && items.length = 1 && !comma then unexpected

end TableAudit.Grammar
