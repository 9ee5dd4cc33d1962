import TableAudit.Token.Basic

namespace TableAudit.Grammar

/-- What is left to read: the tokens, how many were read before them, and how many of those were
    read up to the last one that has a text of its own. -/
structure Input where
  rest : List Token
  index : Nat
  last : Nat
  /-- Whether a missing comma is overlooked, to see how far the text goes on. -/
  probing : Bool

/-- A failure: the number of tokens before the one that fits nothing; whether that one is the
    fault of the scan; whether the failure rests on more than that one token, such as a malformed
    literal. -/
structure Failure where
  index : Nat
  atFault : Bool
  judged : Bool
deriving DecidableEq, Repr, Inhabited

abbrev Reader (α : Type) :=
  StateT Input (Except Failure) α

def atFault (input : Input) : Bool :=
  match input.rest with
  | .fault :: _ => true
  | _ => false

/-- The next token fits nothing. -/
def unexpected {α : Type} : Reader α :=
  fun input => .error ⟨input.index, atFault input, false⟩

/-- What was read is malformed, whatever comes next. -/
def reject {α : Type} : Reader α :=
  fun input => .error ⟨input.index, atFault input, true⟩

def peek : Reader Token :=
  fun input => .ok (input.rest.headD .stop, input)

/-- The token after the next one. -/
def peekSecond : Reader Token :=
  fun input => .ok (input.rest.tail.headD .stop, input)

/-- How many tokens were read. -/
def position : Reader Nat :=
  fun input => .ok (input.index, input)

/-- How many tokens were read up to the last one with a text of its own. -/
def lastText : Reader Nat :=
  fun input => .ok (input.last, input)

/-- How many tokens are left, as a bound for repetitions. -/
def remaining : Reader Nat :=
  fun input => .ok (input.rest.length, input)

def isProbing : Reader Bool :=
  fun input => .ok (input.probing, input)

/-- Takes the next token. The end of the text and a fault are never taken. -/
def take : Reader Token := fun input =>
  match input.rest with
  | [] => .error ⟨input.index, false, false⟩
  | .stop :: _ => .error ⟨input.index, false, false⟩
  | .fault :: _ => .error ⟨input.index, true, false⟩
  | token :: rest =>
    let index := input.index + 1
    let last := if token.isLayout then input.last else index
    .ok (token, { input with rest, index, last })

/-- Takes the next token if it passes a test. -/
def takeIf (test : Token → Bool) : Reader Bool := do
  if test (← peek) then
    let _ ← take
    return true
  else return false

def takeOp (symbol : String) : Reader Bool :=
  takeIf (Token.isOp symbol)

def takeKeyword (word : String) : Reader Bool :=
  takeIf (Token.isKeyword word)

/-- Takes a token that must pass a test. -/
def expect (test : Token → Bool) : Reader Unit := do
  if ← takeIf test then return () else unexpected

def expectOp (symbol : String) : Reader Unit :=
  expect (Token.isOp symbol)

def expectKeyword (word : String) : Reader Unit :=
  expect (Token.isKeyword word)

def isNewline : Token → Bool
  | .newline => true
  | _ => false

def isIndent : Token → Bool
  | .indent => true
  | _ => false

def isDedent : Token → Bool
  | .dedent => true
  | _ => false

def expectName : Reader String := do
  match ← peek with
  | .name id =>
    let _ ← take
    return id
  | _ => unexpected

/-- Whether the next token is an operator or a keyword of some spelling. -/
def nextIsOp (symbol : String) : Reader Bool := do
  return (← peek).isOp symbol

def nextIsKeyword (word : String) : Reader Bool := do
  return (← peek).isKeyword word

/-- A soft keyword is a name that begins a statement of its own. -/
def nextIsName (word : String) : Reader Bool := do
  match ← peek with
  | .name id => return id == word
  | _ => return false

/-- Reads by the first reader, or by the second where the first fails and the fault of the scan
    was not met. -/
def orElse {α : Type} (first second : Reader α) : Reader α := fun input =>
  match first input with
  | .ok answer => .ok answer
  | .error failure => if failure.atFault || failure.judged then .error failure else second input

/-- Repeats a step while it goes on; each step that goes on takes a token. -/
def loop {σ : Type} (step : σ → Reader (σ × Bool)) : Nat → σ → Reader σ
  | 0, state => return state
  | fuel + 1, state => do
    let (state, goesOn) ← step state
    if goesOn then loop step fuel state else return state

/-- Repeats a step at most once for each token that is left, and once more. -/
def repeatStep {σ : Type} (step : σ → Reader (σ × Bool)) (state : σ) : Reader σ := do
  loop step ((← remaining) + 1) state

/-- One item, then more after commas. A comma may stand at the end, before a token that closes the
    sequence; the answer says whether the sequence has a comma at all. -/
def commaSeparated {α : Type} (item : Reader α) (closes : Token → Bool) :
    Reader (List α × Bool) := do
  let first ← item
  let step := fun (state : List α × Bool) => do
    if ← takeOp "," then
      if closes (← peek) then return ((state.1, true), false)
      else
        let more ← item
        return ((more :: state.1, true), true)
    else return (state, false)
  let (reversed, comma) ← repeatStep step ([first], false)
  return (reversed.reverse, comma)

end TableAudit.Grammar
