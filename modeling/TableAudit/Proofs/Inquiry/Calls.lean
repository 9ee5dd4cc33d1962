import TableAudit.Run.Inquiry

namespace TableAudit

/-- A call of an inquiry, with the answer it gets. -/
inductive Call
  | names (answer : Except Raised (List Value))
  | column (name : String) (answer : Except Raised Value)
  | ask (predicate : Callable) (values : List Value) (verdict : Except Raised Bool)

namespace Call

/-- The source answers without an error, and a predicate with none that ends the program. -/
def Answered : Call → Prop
  | names answer => ∃ available, answer = .ok available
  | column _ answer => ∃ column, answer = .ok column
  | ask _ _ verdict => ∀ error, verdict = .error error → error.escapes = false

instance decidableAnswered : DecidablePred Answered
  | names (.ok available) => isTrue ⟨available, rfl⟩
  | names (.error _) => isFalse nofun
  | column _ (.ok values) => isTrue ⟨values, rfl⟩
  | column _ (.error _) => isFalse nofun
  | ask _ _ (.ok _) => isTrue nofun
  | ask _ _ (.error error) =>
    decidable_of_iff (error.escapes = false)
      ⟨fun h _ heq => Except.error.inj heq ▸ h, fun h => h error rfl⟩

end Call

namespace Inquiry

variable {α β σ : Type}

/-- The calls that an inquiry makes, in order. No call is made after an error that ends it. -/
def calls (around : Surroundings σ) : Inquiry α → σ → List Call
  | done _, _ => []
  | fail _, _ => []
  | names next, state =>
    match around.names state with
    | (.ok answer, state) => .names (.ok answer) :: (next answer).calls around state
    | (.error error, _) => [.names (.error error)]
  | column name next, state =>
    match around.column name state with
    | (.ok answer, state) => .column name (.ok answer) :: (next answer).calls around state
    | (.error error, _) => [.column name (.error error)]
  | ask predicate values next, state =>
    match around.ask predicate values state with
    | (.ok answer, state) =>
      .ask predicate values (.ok answer) :: (next (.ok answer)).calls around state
    | (.error error, state) =>
      .ask predicate values (.error error) ::
        if error.escapes then [] else (next (.error error)).calls around state
  | report entry next, state => next.calls around (around.report entry state)

/-- A sequence runs its second part on the result of its first part, from the state reached there.
    An error of the first part ends it. -/
theorem run_bind (around : Surroundings σ) (inquiry : Inquiry α) (next : α → Inquiry β)
    (state : σ) :
    (inquiry.bind next).run around state =
      match inquiry.run around state with
      | (.ok result, state) => (next result).run around state
      | (.error fault, state) => (.error fault, state) := by
  induction inquiry generalizing state with
  | done result => rfl
  | fail fault => rfl
  | names follow ih =>
    simp only [bind, run]
    rcases around.names state with ⟨error | answer, reached⟩
    · rfl
    · exact ih answer reached
  | column name follow ih =>
    simp only [bind, run]
    rcases around.column name state with ⟨error | answer, reached⟩
    · rfl
    · exact ih answer reached
  | ask predicate values follow ih =>
    simp only [bind, run]
    rcases around.ask predicate values state with ⟨error | answer, reached⟩
    · dsimp only
      split
      · rfl
      · exact ih (.error error) reached
    · exact ih (.ok answer) reached
  | report entry follow ih => exact ih (around.report entry state)

/-- The calls of a sequence are those of its first part and then, unless an error ended that, those
    of its second part. -/
theorem calls_bind (around : Surroundings σ) (inquiry : Inquiry α) (next : α → Inquiry β)
    (state : σ) :
    (inquiry.bind next).calls around state =
      inquiry.calls around state ++
        match inquiry.run around state with
        | (.ok result, state) => (next result).calls around state
        | (.error _, _) => [] := by
  induction inquiry generalizing state with
  | done result => rfl
  | fail fault => rfl
  | names follow ih =>
    simp only [bind, run, calls]
    rcases around.names state with ⟨error | answer, reached⟩
    · rfl
    · simp only [ih, List.cons_append]
  | column name follow ih =>
    simp only [bind, run, calls]
    rcases around.column name state with ⟨error | answer, reached⟩
    · rfl
    · simp only [ih, List.cons_append]
  | ask predicate values follow ih =>
    simp only [bind, run, calls]
    rcases around.ask predicate values state with ⟨error | answer, reached⟩
    · dsimp only
      split
      · rfl
      · simp only [ih, List.cons_append]
    · simp only [ih, List.cons_append]
  | report entry follow ih => exact ih (around.report entry state)

end Inquiry

end TableAudit
