import TableAudit.Check.Language

namespace TableAudit

/-- Names with their values, and the language around them. Of two entries for one name the later
    counts. -/
structure Scope where
  names : List (String × Value) := []
  language : Language := .standard

instance : Coe (List (String × Value)) Scope :=
  ⟨fun names => { names }⟩

instance : HAppend Scope (List (String × Value)) Scope :=
  ⟨fun scope more => { scope with names := scope.names ++ more }⟩

/-- Why a path of names does not lead to a value. -/
inductive LookupFailure
  | undefined (id : String)
  | noMember (message : String)

/-- Follows a path of members. -/
def Value.follow (language : Language) : Value → List String → Except LookupFailure Value
  | value, [] => .ok value
  | value, attr :: rest =>
    match language.member value attr with
    | .ok next => next.follow language rest
    | .error message => .error (.noMember message)

namespace Scope

def find? (scope : Scope) (id : String) : Option Value :=
  (scope.names.reverse.find? fun entry => entry.1 == id).map Prod.snd

/-- The value of a path of names: its first name from the scope, or else from the built-ins. -/
def resolve (scope : Scope) (root : String) (attrs : List String) : Except LookupFailure Value :=
  match scope.find? root with
  | some value => value.follow scope.language attrs
  | none =>
    match scope.language.builtin? root with
    | some value => value.follow scope.language attrs
    | none => .error (.undefined root)

/-- The names of the predicate library, with a few that are no predicates. -/
def library : Scope :=
  let limit : Value := .int 10
  let call := fun (p : Predicate) => Value.callable (.library p)
  let deep : Value :=
    .space [("is_odd", call .isOdd), ("col", call .identity), ("check", call .identity)]
  let validators : Value :=
    .space [("is_even", call .isEven), ("is_positive", call .isPositive), ("limit", limit),
      ("deep", deep)]
  { names := (Predicate.all.map fun p => (p.id, call p)) ++
      [("limit", limit), ("label", .text "text"), ("empty", .null), ("validators", validators)] }

end Scope

end TableAudit
