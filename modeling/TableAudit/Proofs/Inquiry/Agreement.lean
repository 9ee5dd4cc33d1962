import TableAudit.Run.Check

namespace TableAudit

/-- What an inquiry asks its surroundings for. -/
inductive Inquiry.Request
  | names
  | column (name : String)
  | verdict (predicate : Callable)

namespace Surroundings

variable {σ τ : Type}

/-- Two surroundings answer some requests alike in related states, and their states stay related. -/
structure Matched (allowed : Inquiry.Request → Prop) (related : σ → τ → Prop)
    (a : Surroundings σ) (b : Surroundings τ) : Prop where
  names : allowed .names → ∀ s t, related s t →
    (a.names s).1 = (b.names t).1 ∧ related (a.names s).2 (b.names t).2
  column : ∀ name, allowed (.column name) → ∀ s t, related s t →
    (a.column name s).1 = (b.column name t).1 ∧ related (a.column name s).2 (b.column name t).2
  ask : ∀ predicate, allowed (.verdict predicate) → ∀ values s t, related s t →
    (a.ask predicate values s).1 = (b.ask predicate values t).1 ∧
      related (a.ask predicate values s).2 (b.ask predicate values t).2
  report : ∀ entry s t, related s t → related (a.report entry s) (b.report entry t)

/-- Two surroundings answer some requests alike in all their states. Neither how the states change
    nor what becomes of reports matters. -/
structure Agree (allowed : Inquiry.Request → Prop) (a : Surroundings σ) (b : Surroundings τ) :
    Prop where
  names : allowed .names → ∀ s t, (a.names s).1 = (b.names t).1
  column : ∀ name, allowed (.column name) → ∀ s t, (a.column name s).1 = (b.column name t).1
  ask : ∀ predicate, allowed (.verdict predicate) →
    ∀ values s t, (a.ask predicate values s).1 = (b.ask predicate values t).1

/-- Surroundings that give the same answer to a request each time. -/
def Steady (allowed : Inquiry.Request → Prop) (around : Surroundings σ) : Prop :=
  Agree allowed around around

variable {allowed : Inquiry.Request → Prop} {a : Surroundings σ} {b : Surroundings τ}

theorem Agree.matched (h : Agree allowed a b) : Matched allowed (fun _ _ => True) a b :=
  ⟨fun hnames s t _ => ⟨h.names hnames s t, trivial⟩,
    fun name hname s t _ => ⟨h.column name hname s t, trivial⟩,
    fun predicate hpredicate values s t _ => ⟨h.ask predicate hpredicate values s t, trivial⟩,
    fun _ _ _ _ => trivial⟩

theorem Agree.right (h : Agree allowed a b) (s : σ) : Steady allowed b :=
  ⟨fun hnames t u => (h.names hnames s t).symm.trans (h.names hnames s u),
    fun name hname t u => (h.column name hname s t).symm.trans (h.column name hname s u),
    fun predicate hpredicate values t u =>
      (h.ask predicate hpredicate values s t).symm.trans (h.ask predicate hpredicate values s u)⟩

/-- A worker gets the answers that anyone gets. -/
theorem Agree.onWorker (h : Agree allowed a b) (number : Nat) :
    Agree allowed (a.onWorker number) b :=
  ⟨h.names, h.column, h.ask⟩

end Surroundings

namespace Inquiry

variable {α β σ τ : Type}

/-- No requests but these are made, whatever the answers are. -/
def Within (allowed : Request → Prop) : Inquiry α → Prop
  | done _ => True
  | fail _ => True
  | names next => allowed .names ∧ ∀ answer, (next answer).Within allowed
  | column name next => allowed (.column name) ∧ ∀ answer, (next answer).Within allowed
  | ask predicate _ next =>
    allowed (.verdict predicate) ∧ ∀ verdict, (next verdict).Within allowed
  | report _ next => next.Within allowed

theorem Within.mono {allowed others : Request → Prop} {inquiry : Inquiry α}
    (h : inquiry.Within allowed) (hothers : ∀ request, allowed request → others request) :
    inquiry.Within others := by
  induction inquiry with
  | done result => trivial
  | fail fault => trivial
  | names follow ih => exact ⟨hothers _ h.1, fun answer => ih answer (h.2 answer)⟩
  | column name follow ih => exact ⟨hothers _ h.1, fun answer => ih answer (h.2 answer)⟩
  | ask predicate values follow ih => exact ⟨hothers _ h.1, fun verdict => ih verdict (h.2 verdict)⟩
  | report entry follow ih => exact ih h

theorem Within.bind {allowed : Request → Prop} {inquiry : Inquiry α} {next : α → Inquiry β}
    (h : inquiry.Within allowed) (hnext : ∀ result, (next result).Within allowed) :
    (inquiry.bind next).Within allowed := by
  induction inquiry with
  | done result => exact hnext result
  | fail fault => trivial
  | names follow ih => exact ⟨h.1, fun answer => ih answer (h.2 answer)⟩
  | column name follow ih => exact ⟨h.1, fun answer => ih answer (h.2 answer)⟩
  | ask predicate values follow ih => exact ⟨h.1, fun verdict => ih verdict (h.2 verdict)⟩
  | report entry follow ih => exact ih h

theorem Within.step {allowed : Request → Prop} {inquiry : Inquiry α}
    (h : inquiry.Within allowed) (around : Surroundings σ) (state : σ) :
    (inquiry.step around state).1.Within allowed := by
  cases inquiry with
  | done result => trivial
  | fail fault => trivial
  | names next =>
    simp only [Inquiry.step]
    rcases around.names state with ⟨error | answer, reached⟩
    · trivial
    · exact h.2 answer
  | column name next =>
    simp only [Inquiry.step]
    rcases around.column name state with ⟨error | answer, reached⟩
    · trivial
    · exact h.2 answer
  | ask predicate values next =>
    simp only [Inquiry.step]
    rcases around.ask predicate values state with ⟨error | verdict, reached⟩
    · dsimp only
      split
      · trivial
      · exact h.2 (.error error)
    · exact h.2 (.ok verdict)
  | report entry next => exact h

variable {allowed : Request → Prop} {a : Surroundings σ} {b : Surroundings τ}

/-- Surroundings that match lead an inquiry to the same result, and their states stay related. -/
theorem run_of_matched {related : σ → τ → Prop} (h : a.Matched allowed related b)
    {inquiry : Inquiry α} (hwithin : inquiry.Within allowed) {s : σ} {t : τ} (hst : related s t) :
    (inquiry.run a s).1 = (inquiry.run b t).1 ∧ related (inquiry.run a s).2 (inquiry.run b t).2 := by
  induction inquiry generalizing s t with
  | done result => exact ⟨rfl, hst⟩
  | fail fault => exact ⟨rfl, hst⟩
  | names next ih =>
    have hanswer := h.names hwithin.1 s t hst
    simp only [run]
    generalize a.names s = given at hanswer ⊢
    generalize b.names t = other at hanswer ⊢
    obtain ⟨answer, s⟩ := given
    obtain ⟨_, t⟩ := other
    obtain ⟨rfl, hst⟩ := hanswer
    cases answer with
    | error error => exact ⟨rfl, hst⟩
    | ok answer => exact ih answer (hwithin.2 answer) hst
  | column name next ih =>
    have hanswer := h.column name hwithin.1 s t hst
    simp only [run]
    generalize a.column name s = given at hanswer ⊢
    generalize b.column name t = other at hanswer ⊢
    obtain ⟨answer, s⟩ := given
    obtain ⟨_, t⟩ := other
    obtain ⟨rfl, hst⟩ := hanswer
    cases answer with
    | error error => exact ⟨rfl, hst⟩
    | ok answer => exact ih answer (hwithin.2 answer) hst
  | ask predicate values next ih =>
    have hanswer := h.ask predicate hwithin.1 values s t hst
    simp only [run]
    generalize a.ask predicate values s = given at hanswer ⊢
    generalize b.ask predicate values t = other at hanswer ⊢
    obtain ⟨verdict, s⟩ := given
    obtain ⟨_, t⟩ := other
    obtain ⟨rfl, hst⟩ := hanswer
    cases verdict with
    | error error =>
      dsimp only
      split
      · exact ⟨rfl, hst⟩
      · exact ih (.error error) (hwithin.2 _) hst
    | ok verdict => exact ih (.ok verdict) (hwithin.2 _) hst
  | report entry next ih => exact ih hwithin (h.report entry s t hst)

/-- Surroundings that agree lead an inquiry to the same result. -/
theorem run_eq_of_agree (h : a.Agree allowed b) {inquiry : Inquiry α}
    (hwithin : inquiry.Within allowed) (s : σ) (t : τ) :
    (inquiry.run a s).1 = (inquiry.run b t).1 :=
  (run_of_matched h.matched hwithin trivial).1

/-- A step does not change what an inquiry ends in. -/
theorem run_step (h : a.Agree allowed b) {inquiry : Inquiry α} (hwithin : inquiry.Within allowed)
    (s : σ) (t u : τ) : ((inquiry.step a s).1.run b t).1 = (inquiry.run b u).1 := by
  have hsteady := h.right s
  cases inquiry with
  | done result => rfl
  | fail fault => rfl
  | names next =>
    simp only [Inquiry.step, run]
    have hanswer := h.names hwithin.1 s u
    generalize a.names s = given at hanswer ⊢
    generalize b.names u = other at hanswer ⊢
    obtain ⟨answer, s⟩ := given
    obtain ⟨_, u⟩ := other
    cases hanswer
    cases answer with
    | error error => rfl
    | ok answer => exact run_eq_of_agree hsteady (hwithin.2 answer) t u
  | column name next =>
    simp only [Inquiry.step, run]
    have hanswer := h.column name hwithin.1 s u
    generalize a.column name s = given at hanswer ⊢
    generalize b.column name u = other at hanswer ⊢
    obtain ⟨answer, s⟩ := given
    obtain ⟨_, u⟩ := other
    cases hanswer
    cases answer with
    | error error => rfl
    | ok answer => exact run_eq_of_agree hsteady (hwithin.2 answer) t u
  | ask predicate values next =>
    simp only [Inquiry.step, run]
    have hanswer := h.ask predicate hwithin.1 values s u
    generalize a.ask predicate values s = given at hanswer ⊢
    generalize b.ask predicate values u = other at hanswer ⊢
    obtain ⟨verdict, s⟩ := given
    obtain ⟨_, u⟩ := other
    cases hanswer
    cases verdict with
    | error error =>
      dsimp only
      split
      · rfl
      · exact run_eq_of_agree hsteady (hwithin.2 _) t u
    | ok verdict => exact run_eq_of_agree hsteady (hwithin.2 _) t u
  | report entry next =>
    have hnext : next.Within allowed := hwithin
    exact run_eq_of_agree hsteady hnext t _

theorem run_of_result? {inquiry : Inquiry α} {result : Except Fault α}
    (h : inquiry.result? = some result) (around : Surroundings σ) (state : σ) :
    (inquiry.run around state).1 = result := by
  cases inquiry <;> cases h <;> rfl

end Inquiry

namespace Check

open Inquiry

/-- The requests of a check: the names, its columns, and the verdicts of its predicate. -/
def Requests (check : Check) : Request → Prop
  | .names => True
  | .column name => name ∈ check.columns
  | .verdict predicate => predicate = check.predicate

/-- The requests of a check that has its columns: the verdicts of its predicate alone. -/
def Verdicts (check : Check) (request : Request) : Prop :=
  request = .verdict check.predicate

theorem within_evaluateRows (check : Check) (columns : List Value) (count index : Nat)
    (found : Findings) : (check.evaluateRows columns count index found).Within check.Verdicts := by
  induction count generalizing index found with
  | zero => trivial
  | succ count ih =>
    rw [evaluateRows]
    cases rowAt columns index with
    | error error => trivial
    | ok values =>
      refine ⟨rfl, fun verdict => ?_⟩
      rcases verdict with error | verdict
      · dsimp only
        split
        · exact ih (index + 1) _
        · exact ih (index + 1) _
      · cases verdict with
        | true => exact ih (index + 1) _
        | false => exact ih (index + 1) _

theorem within_inquireColumns (check : Check) (columns : List Value) :
    (check.inquireColumns columns).Within check.Verdicts := by
  unfold inquireColumns
  cases columns.mapM Value.length with
  | error error => trivial
  | ok lengths =>
    dsimp only
    split
    · refine Within.bind (Within.bind (within_evaluateRows check columns _ 0 _) ?_) ?_
      · intro found
        split <;> trivial
      · intro found
        unfold outcomeOf
        split <;> trivial
    · trivial

theorem within_fetchColumns {allowed : Request → Prop} {names : List String}
    (hnames : ∀ name ∈ names, allowed (.column name)) (fetched : List Value)
    {next : List Value → Inquiry Outcome} (hnext : ∀ columns, (next columns).Within allowed) :
    (fetchColumns names fetched next).Within allowed := by
  induction names generalizing fetched with
  | nil => exact hnext fetched
  | cons name rest ih =>
    refine ⟨hnames name List.mem_cons_self, fun column => ?_⟩
    exact ih (fun other hother => hnames other (List.mem_cons_of_mem _ hother)) (fetched ++ [column])

/-- A check makes no requests but its own. -/
theorem within_inquire (check : Check) : check.inquire.Within check.Requests := by
  refine ⟨trivial, fun available => ?_⟩
  dsimp only
  split
  · refine within_fetchColumns (fun name hname => hname) [] fun columns => ?_
    refine (within_inquireColumns check columns).mono ?_
    rintro request rfl
    exact rfl
  · trivial

end Check

end TableAudit
