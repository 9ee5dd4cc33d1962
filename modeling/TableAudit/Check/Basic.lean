import TableAudit.Value.Basic

namespace TableAudit

structure Check where
  name : String
  predicate : Callable
  columns : List String
deriving DecidableEq, Repr

/-- An ordered, named collection of checks. -/
structure CheckSet where
  name : String
  checks : List Check
deriving DecidableEq, Repr

namespace CheckSet

def size (set : CheckSet) : Nat :=
  set.checks.length

/-- The names of the checks in their order. -/
def names (set : CheckSet) : List String :=
  set.checks.map Check.name

end CheckSet

end TableAudit
