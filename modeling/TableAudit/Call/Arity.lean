import TableAudit.Value.Raised

namespace TableAudit.Arity

/-- Names in a row, with a word before the last. -/
def listed : List String → String
  | [] => ""
  | [name] => name
  | [first, last] => first ++ " and " ++ last
  | names => joinWith ", " names.dropLast ++ ", and " ++ names.getLastD ""

def plural (count : Nat) (word : String) : String :=
  if count = 1 then word else word ++ "s"

/-- The names of arguments that are missing, each of a kind: positional, or passed by name. -/
def missing (function kind : String) (names : List String) : Raised :=
  .of .typeError
    (function ++ "() missing " ++ toString names.length ++ " required " ++ kind ++ " " ++
      plural names.length "argument" ++ ": " ++
      listed (names.map fun name => "'" ++ name ++ "'"))

/-- More values were given than are taken; those given by name as well are counted apart. -/
def tooMany (function : String) (least most given named : Nat) : Raised :=
  let taken :=
    if least = most then toString most ++ " positional " ++ plural most "argument"
    else "from " ++ toString least ++ " to " ++ toString most ++ " positional arguments"
  let more :=
    if named = 0 then ""
    else
      " positional " ++ plural given "argument" ++ " (and " ++ toString named ++
        " keyword-only " ++ plural named "argument" ++ ")"
  .of .typeError
    (function ++ "() takes " ++ taken ++ " but " ++ toString given ++ more ++
      (if given = 1 && named = 0 then " was" else " were") ++ " given")

def repeated (function name : String) : Raised :=
  .of .typeError (function ++ "() got multiple values for argument '" ++ name ++ "'")

def unknown (function name : String) : Raised :=
  .of .typeError (function ++ "() got an unexpected keyword argument '" ++ name ++ "'")

/-- Values were given by name for parameters that have none. -/
def unnamed (function : String) (names : List String) : Raised :=
  .of .typeError
    (function ++ "() got some positional-only arguments passed as keyword arguments: '" ++
      joinWith ", " names ++ "'")

end TableAudit.Arity
