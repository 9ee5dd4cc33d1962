import TableAudit.Proofs.Inquiry.Agreement

namespace TableAudit

namespace Inquiry

variable {α β σ : Type}

/-- What an inquiry reports, in order. Nothing is reported after an error that ends it. -/
def reports (around : Surroundings σ) : Inquiry α → σ → List Entry
  | done _, _ => []
  | fail _, _ => []
  | names next, state =>
    match around.names state with
    | (.ok answer, state) => (next answer).reports around state
    | (.error _, _) => []
  | column name next, state =>
    match around.column name state with
    | (.ok answer, state) => (next answer).reports around state
    | (.error _, _) => []
  | ask predicate values next, state =>
    match around.ask predicate values state with
    | (.ok answer, state) => (next (.ok answer)).reports around state
    | (.error error, state) =>
      if error.escapes then [] else (next (.error error)).reports around state
  | report entry next, state => entry :: next.reports around (around.report entry state)

/-- What the next step of an inquiry reports. -/
def stepReports : Inquiry α → List Entry
  | report entry _ => [entry]
  | _ => []

end Inquiry

namespace Surroundings

variable {σ : Type}

/-- Surroundings that write down what is reported, each entry signed, and nothing else. -/
structure Logs (around : Surroundings σ) (log : σ → List Entry) (sign : Entry → Entry) : Prop where
  names : ∀ state, log (around.names state).2 = log state
  column : ∀ name state, log (around.column name state).2 = log state
  ask : ∀ predicate values state, log (around.ask predicate values state).2 = log state
  report : ∀ entry state, log (around.report entry state) = log state ++ [sign entry]

variable {around : Surroundings σ} {log : σ → List Entry} {sign : Entry → Entry}

/-- What a worker reports is signed with its number first. -/
theorem Logs.onWorker (h : around.Logs log sign) (number : Nat) :
    (around.onWorker number).Logs log (sign ∘ Entry.onWorker number) :=
  ⟨h.names, h.column, h.ask, fun entry state => h.report (entry.onWorker number) state⟩

end Surroundings

namespace Inquiry

variable {α σ τ : Type} {log : σ → List Entry} {sign : Entry → Entry}

/-- A run adds the reports of the inquiry to the log. -/
theorem log_run {around : Surroundings σ} (h : around.Logs log sign) (inquiry : Inquiry α)
    (state : σ) :
    log (inquiry.run around state).2 = log state ++ (inquiry.reports around state).map sign := by
  induction inquiry generalizing state with
  | done result => simp [run, reports]
  | fail fault => simp [run, reports]
  | names next ih =>
    have hkept := h.names state
    simp only [run, reports]
    generalize around.names state = given at hkept ⊢
    obtain ⟨error | answer, reached⟩ := given
    · simpa using hkept
    · rw [ih, hkept]
  | column name next ih =>
    have hkept := h.column name state
    simp only [run, reports]
    generalize around.column name state = given at hkept ⊢
    obtain ⟨error | answer, reached⟩ := given
    · simpa using hkept
    · rw [ih, hkept]
  | ask predicate values next ih =>
    have hkept := h.ask predicate values state
    simp only [run, reports]
    generalize around.ask predicate values state = given at hkept ⊢
    obtain ⟨error | answer, reached⟩ := given
    · dsimp only at hkept ⊢
      split
      · simpa using hkept
      · rw [ih, hkept]
    · rw [ih, hkept]
  | report entry next ih =>
    simp only [run, reports, ih, h.report, List.map_cons, List.append_assoc, List.singleton_append]

/-- A step adds what it reports to the log. -/
theorem log_step {around : Surroundings σ} (h : around.Logs log sign) (inquiry : Inquiry α)
    (state : σ) :
    log (inquiry.step around state).2 = log state ++ inquiry.stepReports.map sign := by
  cases inquiry with
  | done result => simp [step, stepReports]
  | fail fault => simp [step, stepReports]
  | names next =>
    have hkept := h.names state
    simp only [step, stepReports]
    generalize around.names state = given at hkept ⊢
    obtain ⟨error | answer, reached⟩ := given <;> simpa using hkept
  | column name next =>
    have hkept := h.column name state
    simp only [step, stepReports]
    generalize around.column name state = given at hkept ⊢
    obtain ⟨error | answer, reached⟩ := given <;> simpa using hkept
  | ask predicate values next =>
    have hkept := h.ask predicate values state
    simp only [step, stepReports]
    generalize around.ask predicate values state = given at hkept ⊢
    obtain ⟨error | answer, reached⟩ := given
    · dsimp only at hkept ⊢
      split <;> simpa using hkept
    · simpa using hkept
  | report entry next => simp only [step, stepReports, h.report, List.map_cons, List.map_nil]

/-- What a step reports comes before the reports of what is left. -/
theorem reports_eq_step (around : Surroundings σ) (inquiry : Inquiry α) (state : σ) :
    inquiry.reports around state =
      inquiry.stepReports ++
        (inquiry.step around state).1.reports around (inquiry.step around state).2 := by
  cases inquiry with
  | done result => rfl
  | fail fault => rfl
  | names next =>
    simp only [step, reports, stepReports, List.nil_append]
    rcases around.names state with ⟨error | answer, reached⟩ <;> rfl
  | column name next =>
    simp only [step, reports, stepReports, List.nil_append]
    rcases around.column name state with ⟨error | answer, reached⟩ <;> rfl
  | ask predicate values next =>
    simp only [step, reports, stepReports, List.nil_append]
    rcases around.ask predicate values state with ⟨error | answer, reached⟩
    · dsimp only
      split <;> rfl
    · rfl
  | report entry next => rfl

variable {allowed : Request → Prop} {a : Surroundings σ} {b : Surroundings τ}

/-- Surroundings that agree get the same reports from an inquiry. -/
theorem reports_eq_of_agree (h : a.Agree allowed b) {inquiry : Inquiry α}
    (hwithin : inquiry.Within allowed) (s : σ) (t : τ) :
    inquiry.reports a s = inquiry.reports b t := by
  induction inquiry generalizing s t with
  | done result => rfl
  | fail fault => rfl
  | names next ih =>
    have hanswer := h.names hwithin.1 s t
    simp only [reports]
    generalize a.names s = given at hanswer ⊢
    generalize b.names t = other at hanswer ⊢
    obtain ⟨answer, s⟩ := given
    obtain ⟨_, t⟩ := other
    cases hanswer
    cases answer with
    | error error => rfl
    | ok answer => exact ih answer (hwithin.2 answer) s t
  | column name next ih =>
    have hanswer := h.column name hwithin.1 s t
    simp only [reports]
    generalize a.column name s = given at hanswer ⊢
    generalize b.column name t = other at hanswer ⊢
    obtain ⟨answer, s⟩ := given
    obtain ⟨_, t⟩ := other
    cases hanswer
    cases answer with
    | error error => rfl
    | ok answer => exact ih answer (hwithin.2 answer) s t
  | ask predicate values next ih =>
    have hanswer := h.ask predicate hwithin.1 values s t
    simp only [reports]
    generalize a.ask predicate values s = given at hanswer ⊢
    generalize b.ask predicate values t = other at hanswer ⊢
    obtain ⟨verdict, s⟩ := given
    obtain ⟨_, t⟩ := other
    cases hanswer
    cases verdict with
    | error error =>
      dsimp only
      split
      · rfl
      · exact ih (.error error) (hwithin.2 _) s t
    | ok verdict => exact ih (.ok verdict) (hwithin.2 _) s t
  | report entry next ih => exact congrArg (entry :: ·) (ih hwithin _ _)

/-- The reports of an inquiry are what a step reports and then those of what is left, whatever the
    state reached is. -/
theorem reports_step (h : a.Agree allowed b) {inquiry : Inquiry α}
    (hwithin : inquiry.Within allowed) (s : σ) (t u : τ) :
    inquiry.stepReports ++ (inquiry.step a s).1.reports b t = inquiry.reports b u :=
  calc inquiry.stepReports ++ (inquiry.step a s).1.reports b t
    _ = inquiry.stepReports ++ (inquiry.step a s).1.reports a (inquiry.step a s).2 := by
      rw [reports_eq_of_agree h (hwithin.step a s)]
    _ = inquiry.reports a s := (reports_eq_step a inquiry s).symm
    _ = inquiry.reports b u := reports_eq_of_agree h hwithin s u

/-- An inquiry that is at its end reports nothing. -/
theorem reports_of_result? {inquiry : Inquiry α} {result : Except Fault α}
    (h : inquiry.result? = some result) (around : Surroundings σ) (state : σ) :
    inquiry.reports around state = [] := by
  cases inquiry <;> cases h <;> rfl

end Inquiry

end TableAudit
