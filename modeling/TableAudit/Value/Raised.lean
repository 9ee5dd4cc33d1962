import TableAudit.Value.Literal

namespace TableAudit

inductive ErrorKind
  | typeError | valueError | runtimeError | keyError | indexError | stopIteration
  | osError | attributeError | lookupError | overflowError | zeroDivisionError
  | systemExit | keyboardInterrupt | generatorExit
  | other (name : String)
deriving DecidableEq, Repr, Inhabited

def ErrorKind.name : ErrorKind → String
  | typeError => "TypeError"
  | valueError => "ValueError"
  | runtimeError => "RuntimeError"
  | keyError => "KeyError"
  | indexError => "IndexError"
  | stopIteration => "StopIteration"
  | osError => "OSError"
  | attributeError => "AttributeError"
  | lookupError => "LookupError"
  | overflowError => "OverflowError"
  | zeroDivisionError => "ZeroDivisionError"
  | systemExit => "SystemExit"
  | keyboardInterrupt => "KeyboardInterrupt"
  | generatorExit => "GeneratorExit"
  | other name => name

def ErrorKind.named : List ErrorKind :=
  [typeError, valueError, runtimeError, keyError, indexError, stopIteration, osError,
    attributeError, lookupError, overflowError, zeroDivisionError, systemExit,
    keyboardInterrupt, generatorExit]

def ErrorKind.ofName (name : String) : ErrorKind :=
  (ErrorKind.named.find? fun kind => kind.name == name).getD (.other name)

/-- The kinds that end the program rather than report a failure. -/
def ErrorKind.escapes : ErrorKind → Bool
  | systemExit | keyboardInterrupt | generatorExit => true
  | _ => false

structure Raised where
  kind : ErrorKind
  args : List Value
deriving Inhabited

namespace Raised

def of (kind : ErrorKind) (message : String) : Raised :=
  ⟨kind, [.text message]⟩

def escapes (error : Raised) : Bool :=
  error.kind.escapes

/-- The text of an error: its argument, or all of them as a tuple. A missing key is quoted, and
    an error of the system shows its number. -/
def message (error : Raised) : String :=
  match error.kind, error.args with
  | _, [] => ""
  | .keyError, [key] => key.literal
  | .osError, [number, reason] => "[Errno " ++ number.display ++ "] " ++ reason.display
  | _, [arg] => arg.display
  | _, args => (Value.tuple args).literal

/-- The literal of an error: its kind and the literals of its arguments. -/
def literal (error : Raised) : String :=
  match error.args with
  | [arg] => error.kind.name ++ "(" ++ arg.literal ++ ")"
  | args => error.kind.name ++ (Value.tuple args).literal

end Raised

/-- The literal of a value, which it has unless a number in it has too many digits. -/
def Value.print (value : Value) : Except Raised String :=
  if value.exceedsDigits then .error (.of .valueError Decimal.tooManyDigits)
  else .ok value.literal

end TableAudit
