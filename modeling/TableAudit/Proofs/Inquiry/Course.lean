import TableAudit.Proofs.Inquiry.Calls

namespace TableAudit

namespace Inquiry

variable {α σ : Type}

/-- A course of an inquiry, with its calls and its result. -/
inductive Course (around : Surroundings σ) :
    Inquiry α → List Call → Except Fault α → Prop
  | done {result : α} : Course around (.done result) [] (.ok result)
  | fail {fault : Fault} : Course around (.fail fault) [] (.error fault)
  | names {next : List Value → Inquiry α} {state : σ} {answer : List Value} {calls : List Call}
      {result : Except Fault α} (hanswer : (around.names state).1 = .ok answer)
      (hrest : Course around (next answer) calls result) :
      Course around (.names next) (.names (.ok answer) :: calls) result
  | namesFail {next : List Value → Inquiry α} {state : σ} {error : Raised}
      (hanswer : (around.names state).1 = .error error) :
      Course around (.names next) [.names (.error error)] (.error (.raised error))
  | column {name : String} {next : Value → Inquiry α} {state : σ} {answer : Value}
      {calls : List Call} {result : Except Fault α}
      (hanswer : (around.column name state).1 = .ok answer)
      (hrest : Course around (next answer) calls result) :
      Course around (.column name next) (.column name (.ok answer) :: calls) result
  | columnFail {name : String} {next : Value → Inquiry α} {state : σ} {error : Raised}
      (hanswer : (around.column name state).1 = .error error) :
      Course around (.column name next) [.column name (.error error)] (.error (.raised error))
  | ask {predicate : Callable} {values : List Value} {next : Except Raised Bool → Inquiry α}
      {state : σ} {verdict : Except Raised Bool} {calls : List Call} {result : Except Fault α}
      (hanswer : (around.ask predicate values state).1 = verdict)
      (hstay : ∀ error, verdict = .error error → error.escapes = false)
      (hrest : Course around (next verdict) calls result) :
      Course around (.ask predicate values next) (.ask predicate values verdict :: calls) result
  | askEscape {predicate : Callable} {values : List Value}
      {next : Except Raised Bool → Inquiry α} {state : σ} {error : Raised}
      (hanswer : (around.ask predicate values state).1 = .error error)
      (hescapes : error.escapes = true) :
      Course around (.ask predicate values next) [.ask predicate values (.error error)]
        (.error (.raised error))
  | report {entry : Entry} {next : Inquiry α} {calls : List Call} {result : Except Fault α}
      (hrest : Course around next calls result) : Course around (.report entry next) calls result

/-- An inquiry may end in a result. -/
def MayEnd (around : Surroundings σ) (inquiry : Inquiry α) (result : Except Fault α) : Prop :=
  ∃ calls, inquiry.Course around calls result

/-- A run without interruption is a course. -/
theorem course_run (around : Surroundings σ) (inquiry : Inquiry α) (state : σ) :
    inquiry.Course around (inquiry.calls around state) (inquiry.run around state).1 := by
  induction inquiry generalizing state with
  | done result => exact .done
  | fail fault => exact .fail
  | names next ih =>
    rw [run, calls]
    cases hanswer : around.names state with
    | mk answer reached =>
      have hfirst := congrArg Prod.fst hanswer
      cases answer with
      | error error => exact .namesFail hfirst
      | ok answer => exact .names hfirst (ih answer reached)
  | column name next ih =>
    rw [run, calls]
    cases hanswer : around.column name state with
    | mk answer reached =>
      have hfirst := congrArg Prod.fst hanswer
      cases answer with
      | error error => exact .columnFail hfirst
      | ok answer => exact .column hfirst (ih answer reached)
  | ask predicate values next ih =>
    rw [run, calls]
    cases hanswer : around.ask predicate values state with
    | mk verdict reached =>
      have hfirst := congrArg Prod.fst hanswer
      cases verdict with
      | ok verdict => exact .ask hfirst (by simp) (ih (.ok verdict) reached)
      | error error =>
        cases hescapes : error.escapes
        · simp only [hescapes, Bool.false_eq_true, if_false]
          refine .ask hfirst ?_ (ih (.error error) reached)
          rintro _ ⟨⟩
          exact hescapes
        · simp only [hescapes, if_true]
          exact .askEscape hfirst hescapes
  | report entry next ih => exact .report (ih _)

/-- What may come after a step may come after all. -/
theorem MayEnd.of_step {around : Surroundings σ} {inquiry : Inquiry α} {result : Except Fault α}
    {worker : Nat} {state : σ}
    (h : (inquiry.step (around.onWorker worker) state).1.MayEnd around result) :
    inquiry.MayEnd around result := by
  cases inquiry with
  | done result => exact h
  | fail fault => exact h
  | names next =>
    rw [step] at h
    cases hanswer : (around.onWorker worker).names state with
    | mk answer reached =>
      have hfirst := congrArg Prod.fst hanswer
      rw [hanswer] at h
      obtain ⟨calls, hcourse⟩ := h
      cases answer with
      | ok answer => exact ⟨_, .names hfirst hcourse⟩
      | error error =>
        cases hcourse
        exact ⟨_, .namesFail hfirst⟩
  | column name next =>
    rw [step] at h
    cases hanswer : (around.onWorker worker).column name state with
    | mk answer reached =>
      have hfirst := congrArg Prod.fst hanswer
      rw [hanswer] at h
      obtain ⟨calls, hcourse⟩ := h
      cases answer with
      | ok answer => exact ⟨_, .column hfirst hcourse⟩
      | error error =>
        cases hcourse
        exact ⟨_, .columnFail hfirst⟩
  | ask predicate values next =>
    rw [step] at h
    cases hanswer : (around.onWorker worker).ask predicate values state with
    | mk verdict reached =>
      have hfirst := congrArg Prod.fst hanswer
      rw [hanswer] at h
      obtain ⟨calls, hcourse⟩ := h
      cases verdict with
      | ok verdict => exact ⟨_, .ask hfirst (by simp) hcourse⟩
      | error error =>
        cases hescapes : error.escapes
        · simp only [hescapes, Bool.false_eq_true, if_false] at hcourse
          refine ⟨_, .ask hfirst ?_ hcourse⟩
          rintro _ ⟨⟩
          exact hescapes
        · simp only [hescapes, if_true] at hcourse
          cases hcourse
          exact ⟨_, .askEscape hfirst hescapes⟩
  | report entry next =>
    obtain ⟨calls, hcourse⟩ := h
    exact ⟨calls, .report hcourse⟩

/-- Surroundings that give the answers of a list of calls, one after the other. -/
def scripted : Surroundings (List Call) where
  names
    | .names answer :: rest => (answer, rest)
    | rest => (.ok [], rest)
  column _
    | .column _ answer :: rest => (answer, rest)
    | rest => (.ok .null, rest)
  ask _ _
    | .ask _ _ verdict :: rest => (verdict, rest)
    | rest => (.ok true, rest)
  report _ rest := rest

/-- A course is the run in surroundings that give its answers. -/
theorem Course.run_scripted {around : Surroundings σ} {inquiry : Inquiry α} {calls : List Call}
    {result : Except Fault α} (h : inquiry.Course around calls result) :
    inquiry.calls scripted calls = calls ∧ (inquiry.run scripted calls).1 = result := by
  induction h with
  | done => exact ⟨rfl, rfl⟩
  | fail => exact ⟨rfl, rfl⟩
  | names _ _ ih => exact ⟨congrArg _ ih.1, ih.2⟩
  | namesFail _ => exact ⟨rfl, rfl⟩
  | column _ _ ih => exact ⟨congrArg _ ih.1, ih.2⟩
  | columnFail _ => exact ⟨rfl, rfl⟩
  | @ask predicate values next state verdict calls result hanswer hstay hrest ih =>
    cases verdict with
    | ok verdict => exact ⟨congrArg _ ih.1, ih.2⟩
    | error error =>
      have hstays := hstay error rfl
      simp only [Inquiry.calls, run, Inquiry.scripted, hstays, Bool.false_eq_true, if_false]
      exact ⟨congrArg _ ih.1, ih.2⟩
  | askEscape _ hescapes =>
    simp only [Inquiry.calls, run, Inquiry.scripted, hescapes, if_true]
    exact ⟨trivial, trivial⟩
  | report _ ih => exact ih

end Inquiry

end TableAudit
