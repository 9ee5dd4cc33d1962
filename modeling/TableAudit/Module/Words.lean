import TableAudit.Call.Marker

namespace TableAudit

/-- The definition of a word of declarations. -/
def Marker.definition : Marker → String
  | column =>
    "def col(name: str) -> ColumnRef:\n" ++
    "    \"\"\"Reference column *name* inside a check declaration.\"\"\"\n" ++
    "    return ColumnRef(name)\n"
  | check =>
    "def check(name: str, invocation: Any) -> None:\n" ++
    "    \"\"\"Declare a check inside a block passed to :func:`checkset`.\n" ++
    "\n" ++
    "    Declarations are read from source and never executed; calling this\n" ++
    "    function directly is always an error.\n" ++
    "    \"\"\"\n" ++
    "    raise RuntimeError(\n" ++
    "        f\"check(\x7bname!r\x7d, ...) is a declaration: use it inside a block " ++
      "compiled by \"\n" ++
    "        \"checkset() or compile_checkset()\"\n" ++
    "    )\n"

/-- The word that declares the check set of a function. Called with a name, it returns what a
    function is to be decorated with. -/
structure Declarer where
  /-- The name given to the check set; none for the word itself. -/
  name : Option Value
deriving Inhabited

namespace Declarer

def word : String := "checkset"

def title (declarer : Declarer) : String :=
  match declarer.name with
  | none => word
  | some _ => word ++ ".<locals>.decorator"

def params (declarer : Declarer) : List String :=
  match declarer.name with
  | none => ["name"]
  | some _ => ["func"]

def signature (declarer : Declarer) : Signature :=
  { title := declarer.title, params := .ofNames declarer.params }

/-- The definition of the word, within which that of the decorating function stands. -/
def definition (declarer : Declarer) : String :=
  let inner :=
    "    def decorator(func: Callable[..., Any]) -> CheckSet:\n" ++
    "        return compile_checkset(name, func)\n"
  match declarer.name with
  | some _ => inner
  | none =>
    "def checkset(name: str) -> Callable[[Callable[..., Any]], CheckSet]:\n" ++
    "    \"\"\"Decorator compiling a function's body into a :class:`CheckSet`.\n" ++
    "\n" ++
    "    The decorated name is bound to the resulting check set, not to the\n" ++
    "    function.\n" ++
    "    \"\"\"\n" ++
    "\n" ++ inner ++ "\n" ++
    "    return decorator\n"

end Declarer

end TableAudit
