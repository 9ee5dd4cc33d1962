import TableAudit.Proofs.Check.Course
import TableAudit.Proofs.Labelled
import TableAudit.Proofs.Pool.Delivery
import TableAudit.Proofs.Source.Steady

namespace TableAudit

namespace CheckSet

open Inquiry

variable {σ : Type} {allowed : Request → Prop} {around : Surroundings σ}

/-- The requests that the checks of a set make. -/
def Requests (set : CheckSet) (request : Request) : Prop :=
  ∃ check ∈ set.checks, check.Requests request

/-- Of the predicates that there are, those of a set without the counting one answer alike. -/
theorem pure_of_not_requests {set : CheckSet}
    (hcounted : ¬ set.Requests (.verdict (.library .counted))) {check : Check}
    (hcheck : check ∈ set.checks) : Judge.Pure Callable.evaluate check.predicate :=
  Callable.pure_of_not_allowed hcounted check.predicate ⟨check, hcheck, rfl⟩

/-- On data a set is run in the surroundings that its source makes. -/
theorem runUnder_eq_runIn {data : Data} {source : Source} {world begun : World}
    (hsource : Source.ofData data world = (.ok source, begun)) (judge : Judge) (set : CheckSet)
    (mode : Mode) :
    set.runUnder judge data mode world = set.runIn (source.under judge) mode begun := by
  simp only [runUnder, Job.andThen, Source.adapt, Job.ofAct, hsource]

/-- How a run of a set ends, from what its checks give by themselves: with an outcome for each name,
    or with the error of the first check that stops. -/
inductive Ends (set : CheckSet) (around : Surroundings σ) (state : σ) :
    Except Fault (Labelled Outcome) → Prop
  | returned {outcomes : List Outcome}
      (houtcomes : List.Forall₂
        (fun check outcome => (check.inquire.run around state).1 = .ok outcome) set.checks outcomes) :
      Ends set around state (.ok (Labelled.ofList (set.names.zip outcomes)))
  | raised {before after : List Check} {check : Check} {error : Raised}
      (hchecks : set.checks = before ++ check :: after)
      (hbefore : ∀ earlier ∈ before, ∃ outcome, (earlier.inquire.run around state).1 = .ok outcome)
      (hcheck : (check.inquire.run around state).1 = .error (.raised error))
      (hstops : check.Stops (check.inquire.calls around state) error) :
      Ends set around state (.error (.raised error))

/-- Inquiries run one after the other end in the first fault among their results, or in all. -/
theorem runInOrder_eq_firstFault (hsteady : around.Steady allowed) {inquiries : List (Inquiry Outcome)}
    (hwithin : ∀ inquiry ∈ inquiries, inquiry.Within allowed) (s t : σ) :
    (runInOrder around inquiries s).1 =
      firstFault (inquiries.map fun inquiry => (inquiry.run around t).1) := by
  induction inquiries generalizing s with
  | nil => rfl
  | cons inquiry rest ih =>
    have hrest := ih fun other hother => hwithin other (List.mem_cons_of_mem _ hother)
    have hfirst := run_eq_of_agree hsteady (hwithin inquiry List.mem_cons_self) s t
    rw [runInOrder, List.map_cons, ← hfirst]
    rcases inquiry.run around s with ⟨fault | outcome, reached⟩
    · rfl
    · simp only [firstFault, ← hrest reached]
      rcases runInOrder around rest reached with ⟨fault | outcomes, final⟩ <;> rfl

/-- The outcomes of all checks in a list, or the error of the first that stops. -/
theorem firstFault_cases (around : Surroundings σ) (checks : List Check) (state : σ) :
    (∃ outcomes, firstFault (checks.map fun check => (check.inquire.run around state).1) =
        .ok outcomes ∧
      List.Forall₂ (fun check outcome => (check.inquire.run around state).1 = .ok outcome)
        checks outcomes) ∨
    ∃ before check after error,
      firstFault (checks.map fun check => (check.inquire.run around state).1) =
        .error (.raised error) ∧
      checks = before ++ check :: after ∧
      (∀ earlier ∈ before, ∃ outcome, (earlier.inquire.run around state).1 = .ok outcome) ∧
      (check.inquire.run around state).1 = .error (.raised error) ∧
      check.Stops (check.inquire.calls around state) error := by
  induction checks with
  | nil => exact .inl ⟨[], rfl, .nil⟩
  | cons check rest ih =>
    have hends := Check.ends_inquire around check state
    rw [List.map_cons]
    cases hrun : (check.inquire.run around state).1 with
    | error fault =>
      rw [hrun] at hends
      cases hends with
      | @stops error hstops => exact .inr ⟨[], check, rest, error, rfl, rfl, by simp, hrun, hstops⟩
    | ok outcome =>
      rcases ih with ⟨outcomes, hresult, houtcomes⟩ |
        ⟨before, stopped, after, error, hresult, hchecks, hbefore, hstopped⟩
      · exact .inl ⟨outcome :: outcomes, by rw [firstFault, hresult]; rfl, .cons hrun houtcomes⟩
      · refine .inr ⟨check :: before, stopped, after, error, by rw [firstFault, hresult]; rfl,
          by rw [hchecks, List.cons_append], ?_, hstopped⟩
        intro earlier hearlier
        cases hearlier with
        | head => exact ⟨outcome, hrun⟩
        | tail _ hearlier => exact hbefore earlier hearlier

theorem within_requests (set : CheckSet) :
    ∀ inquiry ∈ set.checks.map Check.inquire, inquiry.Within set.Requests := by
  intro inquiry hinquiry
  obtain ⟨check, hcheck, rfl⟩ := List.mem_map.mp hinquiry
  exact (Check.within_inquire check).mono fun request hrequest => ⟨check, hcheck, hrequest⟩

/-- However a set is run, and in whatever state it begins, its result is made of those that the
    checks have by themselves. -/
theorem runIn_eq_firstFault {set : CheckSet}
    (hsteady : around.Steady set.Requests)
    (mode : Mode) (s t : σ) :
    (set.runIn around mode s).1 =
      (firstFault (set.checks.map fun check => (check.inquire.run around t).1)).map
        fun outcomes => Labelled.ofList (set.names.zip outcomes) := by
  have hwithin := set.within_requests
  have hresults (u : σ) :
      (set.checks.map Check.inquire).map (fun inquiry => (inquiry.run around u).1) =
        set.checks.map fun check => (check.inquire.run around t).1 := by
    rw [List.map_map]
    refine List.map_congr_left fun check hcheck => ?_
    exact run_eq_of_agree hsteady (hwithin _ (List.mem_map_of_mem hcheck)) u t
  unfold runIn
  dsimp only
  split
  · rw [Pool.run_eq_map hsteady hwithin, hresults]
  · rw [runInOrder_eq_firstFault hsteady hwithin s t, hresults]

theorem ends_runIn {set : CheckSet}
    (hsteady : around.Steady set.Requests)
    (mode : Mode) (s t : σ) : set.Ends around t (set.runIn around mode s).1 := by
  rw [runIn_eq_firstFault hsteady mode s t]
  rcases firstFault_cases around set.checks t with ⟨outcomes, hresult, houtcomes⟩ |
    ⟨before, check, after, error, hresult, hchecks, hbefore, hcheck, hstops⟩
  · rw [hresult]
    exact .returned houtcomes
  · rw [hresult]
    exact .raised hchecks hbefore hcheck hstops

theorem Ends.labels {set : CheckSet} {state : σ} {outcomes : Labelled Outcome}
    (h : set.Ends around state (.ok outcomes)) : outcomes.labels = set.names.eraseDups := by
  cases h with
  | @returned found houtcomes =>
    have hlength : set.names.length = found.length := by
      rw [names, List.length_map, houtcomes.length_eq]
    rw [Labelled.labels_ofList, List.map_fst_zip (Nat.le_of_eq hlength)]

/-- Runs of a set end the same in any two modes: one after the other or concurrent, for every number
    of workers and every schedule. They give the same outcomes under the names of the set, each where
    it first occurs; or they stop with the error of the first check, in the order of the set, that
    stops. -/
theorem runIn_eq_of_modes {set : CheckSet}
    (hsteady : around.Steady set.Requests)
    (mode other : Mode) (s t : σ) :
    (set.runIn around mode s).1 = (set.runIn around other t).1 ∧
      set.Ends around t (set.runIn around mode s).1 ∧
      (∀ outcomes, (set.runIn around mode s).1 = .ok outcomes →
        outcomes.labels = set.names.eraseDups) ∧
      0 < mode.workers set.checks.length := by
  have hends := ends_runIn hsteady mode s t
  refine ⟨?_, hends, fun outcomes hresult => ?_, ?_⟩
  · rw [runIn_eq_firstFault hsteady mode s t, runIn_eq_firstFault hsteady other t t]
  · rw [hresult] at hends
    exact hends.labels
  · unfold Mode.workers Pool.size
    omega

/-- A repeated name, a check without columns, and two checks that stop: the later one at its first
    row, by an error that ends the program. -/
theorem runIn_eq_of_modes_stopping :
    let set : CheckSet := ⟨"set",
      [⟨"a", .library .isPositive, ["x"]⟩, ⟨"a", .library .isEven, ["x"]⟩,
        ⟨"none", .library .hasTwo, []⟩, ⟨"gone", .library .isPositive, ["y"]⟩,
        ⟨"exits", .library .exits, ["x"]⟩]⟩
    let column : Value := .list [.int 1, .int 2]
    let table : Table := ⟨0, [(.text "x", column), (.text "y", column)], none, false, some "y"⟩
    let around := (Source.table table).surroundings
    let pooled : Mode := ⟨true, some 3, 1, [2, 0, 2, 2, 1]⟩
    let ordered : Mode := ⟨false, none, 1, []⟩
    around.Steady set.Requests ∧
      (set.runIn around pooled {}).1 = (set.runIn around ordered {}).1 ∧
      set.Ends around {} (set.runIn around pooled {}).1 := by
  intro set column table around pooled ordered
  have hsteady : around.Steady set.Requests := by
    refine Source.steady_table (by simp [table]) (Callable.pure_of_not_allowed ?_)
    simp [set, Requests, Check.Requests]
  obtain ⟨hequal, hends, -⟩ := runIn_eq_of_modes hsteady pooled ordered {} {}
  exact ⟨hsteady, hequal, hends⟩

end CheckSet

end TableAudit
