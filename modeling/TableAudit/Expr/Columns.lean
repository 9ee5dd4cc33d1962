import TableAudit.Expr.Basic

namespace TableAudit.Expr

/-- The word that marks a column and the word that declares a check. -/
def columnWord : String := "col"
def checkWord : String := "check"

/-- Whether a callee is a word, as a name or as the last name of a path. -/
def isWord (word : String) : Expr → Bool
  | name id => id == word
  | member _ attr => attr == word
  | _ => false

/-- Whether an expression is a call of a word. -/
def isMarker (word : String) : Expr → Bool
  | call function _ _ _ => function.isWord word
  | _ => false

/-- The column that the arguments of a marker name: exactly one of them, and a text literal. -/
def markedColumn? (args values : List Expr) : Option String :=
  match args, values with
  | [arg], [] => arg.text?
  | _, _ => none

mutual

/-- The column markers of an expression in the order of its fields, each with its column, or with
    nothing where the marker is malformed. -/
def markers : Expr → List (Option String)
  | name _ => []
  | literal _ => []
  | joined parts => markersAll parts
  | field value _ format => markers value ++ markersOptional format
  | member value _ => markers value
  | subscript value index => markers value ++ markers index
  | slice lower upper step =>
    markersOptional lower ++ markersOptional upper ++ markersOptional step
  | call function args _ values =>
    if function.isWord columnWord then [markedColumn? args values]
    else markers function ++ markersAll args ++ markersAll values
  | starred value => markers value
  | assign target value => markers target ++ markers value
  | boolean _ operands => markersAll operands
  | unary _ operand => markers operand
  | binary left _ right => markers left ++ markers right
  | compare left _ rest => markers left ++ markersAll rest
  | lambda _ keywordDefaults defaults body =>
    markersAll keywordDefaults ++ markersAll defaults ++ markers body
  | conditional test body otherwise => markers test ++ markers body ++ markers otherwise
  | tuple items => markersAll items
  | list items => markersAll items
  | set items => markersAll items
  | dict _ keys values => markersAll keys ++ markersAll values
  | comprehension _ element clauses => markers element ++ markersAll clauses
  | dictComprehension key value clauses => markers key ++ markers value ++ markersAll clauses
  | clause _ target source conditions =>
    markers target ++ markers source ++ markersAll conditions
  | await value => markers value
  | yield value => markersOptional value
  | yieldFrom value => markers value

def markersAll : List Expr → List (Option String)
  | [] => []
  | e :: rest => markers e ++ markersAll rest

def markersOptional : Option Expr → List (Option String)
  | none => []
  | some e => markers e

end

theorem markersAll_eq_flatMap (es : List Expr) : markersAll es = es.flatMap markers := by
  induction es with
  | nil => rfl
  | cons e rest ih => simp [markersAll, ih]

theorem markersOptional_eq_flatMap (e : Option Expr) :
    markersOptional e = e.toList.flatMap markers := by
  cases e <;> simp [markersOptional]

/-- Outside a column marker, the markers of an expression are those of its parts. -/
theorem markers_eq_flatMap_children (e : Expr) (h : e.isMarker columnWord = false) :
    e.markers = e.children.flatMap markers := by
  cases e <;>
    simp_all [markers, children, isMarker, markersAll_eq_flatMap, markersOptional_eq_flatMap]

/-- The columns found so far with one more, which stays where it is if it was found before. -/
def addColumn (found : List String) (column : String) : List String :=
  if found.contains column then found else found ++ [column]

mutual

/-- Goes through an expression in the order of its fields, and adds the column of each marker to
    those found so far. The first malformed marker ends it. -/
def collect : Expr → List String → Option (List String)
  | name _, found => some found
  | literal _, found => some found
  | joined parts, found => collectAll parts found
  | field value _ format, found => do collectOptional format (← collect value found)
  | member value _, found => collect value found
  | subscript value index, found => do collect index (← collect value found)
  | slice lower upper step, found => do
    let found ← collectOptional lower found
    collectOptional step (← collectOptional upper found)
  | call function args _ values, found =>
    if function.isWord columnWord then (markedColumn? args values).map (addColumn found)
    else do
      let found ← collect function found
      collectAll values (← collectAll args found)
  | starred value, found => collect value found
  | assign target value, found => do collect value (← collect target found)
  | boolean _ operands, found => collectAll operands found
  | unary _ operand, found => collect operand found
  | binary left _ right, found => do collect right (← collect left found)
  | compare left _ rest, found => do collectAll rest (← collect left found)
  | lambda _ keywordDefaults defaults body, found => do
    let found ← collectAll keywordDefaults found
    collect body (← collectAll defaults found)
  | conditional test body otherwise, found => do
    let found ← collect test found
    collect otherwise (← collect body found)
  | tuple items, found => collectAll items found
  | list items, found => collectAll items found
  | set items, found => collectAll items found
  | dict _ keys values, found => do collectAll values (← collectAll keys found)
  | comprehension _ element clauses, found => do collectAll clauses (← collect element found)
  | dictComprehension key value clauses, found => do
    let found ← collect key found
    collectAll clauses (← collect value found)
  | clause _ target source conditions, found => do
    let found ← collect target found
    collectAll conditions (← collect source found)
  | await value, found => collect value found
  | yield value, found => collectOptional value found
  | yieldFrom value, found => collect value found

def collectAll : List Expr → List String → Option (List String)
  | [], found => some found
  | e :: rest, found => do collectAll rest (← collect e found)

def collectOptional : Option Expr → List String → Option (List String)
  | none, found => some found
  | some e, found => collect e found

end

theorem collectAll_eq_foldlM (es : List Expr) (found : List String) :
    collectAll es found = es.foldlM (fun found e => collect e found) found := by
  induction es generalizing found with
  | nil => rfl
  | cons e rest ih =>
    rw [collectAll, List.foldlM_cons]
    exact congrArg (Option.bind (collect e found)) (funext ih)

theorem collectOptional_eq_foldlM (e : Option Expr) (found : List String) :
    collectOptional e found = e.toList.foldlM (fun found e => collect e found) found := by
  cases e <;> simp [collectOptional]

/-- Outside a column marker, collecting goes through the parts of an expression one by one. -/
theorem collect_eq_foldlM_children (e : Expr) (h : e.isMarker columnWord = false)
    (found : List String) :
    e.collect found = e.children.foldlM (fun found part => collect part found) found := by
  cases e <;>
    simp_all [collect, children, isMarker, collectAll_eq_foldlM, collectOptional_eq_foldlM,
      List.foldlM_append]

/-- The columns of an expression, each once, where it is first met; nothing if some marker is
    malformed. -/
def columns? (e : Expr) : Option (List String) :=
  e.collect []

end TableAudit.Expr
