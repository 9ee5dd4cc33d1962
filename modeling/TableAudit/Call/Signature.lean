import TableAudit.Call.Arity
import TableAudit.Expr.Basic

namespace TableAudit

structure Signature where
  /-- The name by which errors refer to the function. -/
  title : String
  params : Params
  /-- The values of the last positional parameters. -/
  defaults : List Value := []
  keywordDefaults : List (String × Value) := []

namespace Params

/-- The parameters that take values by position, in their order. -/
def positional (p : Params) : List String :=
  p.slashed ++ p.plain

def names (p : Params) : List String :=
  p.positional ++ p.star.toList ++ p.keywords.map Prod.fst ++ p.doubleStar.toList

/-- Parameters that take one value each, by position or by name. -/
def ofNames (names : List String) : Params :=
  ⟨[], names, none, [], none⟩

end Params

namespace Signature

/-- The parameters with values, and the values by name that no parameter takes. -/
structure Bound where
  values : List (String × Value)
  more : List (String × Value)

def Bound.has (bound : Bound) (name : String) : Bool :=
  bound.values.any fun entry => entry.1 == name

/-- Puts a value given by name under it. -/
def bindNamed (s : Signature) (bound : Bound) (entry : String × Value) : Except Raised Bound :=
  let p := s.params
  if p.plain.contains entry.1 || (p.keywords.map Prod.fst).contains entry.1 then
    if bound.has entry.1 then .error (Arity.repeated s.title entry.1)
    else .ok { bound with values := bound.values ++ [entry] }
  else if p.doubleStar.isSome then .ok { bound with more := bound.more ++ [entry] }
  else if p.slashed.contains entry.1 then .error (Arity.unnamed s.title [entry.1])
  else .error (Arity.unknown s.title entry.1)

/-- The values that positional parameters have when none are given. -/
def usual (s : Signature) : List (String × Value) :=
  let names := s.params.positional
  (names.drop (names.length - s.defaults.length)).zip s.defaults

/-- Adds the values that parameters have when none are given. -/
def complete (bound : Bound) (usual : List (String × Value)) : Bound :=
  { bound with values := bound.values ++ usual.filter fun entry => !bound.has entry.1 }

/-- The values of a call under the names of the parameters. -/
def bind (s : Signature) (args : List Value) (named : List (String × Value)) :
    Except Raised (List (String × Value)) := do
  let p := s.params
  let names := p.positional
  let bound ← named.foldlM s.bindNamed ⟨names.zip args, []⟩
  if p.star.isNone && names.length < args.length then
    let byName := (p.keywords.filter fun keyword => bound.has keyword.1).length
    throw (Arity.tooMany s.title (names.length - s.defaults.length) names.length args.length
      byName)
  let bound := complete bound s.usual
  let missing := names.filter fun name => !bound.has name
  if !missing.isEmpty then throw (Arity.missing s.title "positional" missing)
  let bound := complete bound s.keywordDefaults
  let missing := (p.keywords.map Prod.fst).filter fun name => !bound.has name
  if !missing.isEmpty then throw (Arity.missing s.title "keyword-only" missing)
  let rest := p.star.toList.map fun name => (name, Value.tuple (args.drop names.length))
  let more := p.doubleStar.toList.map fun name =>
    (name, Value.dict (bound.more.map fun entry => (.text entry.1, entry.2)))
  return bound.values ++ rest ++ more

end Signature

end TableAudit
