import TableAudit.Proofs.Inquiry.Agreement
import TableAudit.Run.CheckSet

namespace TableAudit

/-- A predicate whose verdict by a judge depends on its values alone. -/
def Judge.Pure (judge : Judge) (predicate : Callable) : Prop :=
  ∀ values s t, (judge predicate values s).1 = (judge predicate values t).1

/-- All predicates but one answer without a look at the world. -/
theorem Callable.pure_of_ne_counted {predicate : Callable} (h : predicate ≠ .library .counted) :
    Judge.Pure Callable.evaluate predicate := by
  intro values s t
  cases predicate with
  | library p =>
    cases p with
    | counted => exact absurd rfl h
    | _ => rfl
  | builtin b => rfl
  | defined number path => rfl

theorem Callable.pure_of_not_allowed {allowed : Inquiry.Request → Prop}
    (hcounted : ¬ allowed (.verdict (.library .counted))) (predicate : Callable)
    (hallowed : allowed (.verdict predicate)) : Judge.Pure Callable.evaluate predicate := by
  refine pure_of_ne_counted ?_
  rintro rfl
  exact hcounted hallowed

namespace Source

/-- Anything but a stream gives the same items each time, and leaves the world as it is. -/
theorem collect_of_not_stream {value : Value} (h : ∀ number, value ≠ .stream number) :
    ∃ items, ∀ world, value.collect world = (items, world) := by
  unfold Value.collect
  cases value with
  | stream number => exact absurd rfl (h number)
  | _ =>
    dsimp only
    split
    · exact ⟨_, fun world => rfl⟩
    · exact ⟨_, fun world => rfl⟩

/-- A table whose names are no stream answers alike, also where it fails. -/
theorem steady_table {allowed : Inquiry.Request → Prop} {table : Table} {judge : Judge}
    (hnames : ∀ number, table.names ≠ some (.stream number))
    (hpure : ∀ predicate, allowed (.verdict predicate) → judge.Pure predicate) :
    ((Source.table table).under judge).Steady allowed := by
  refine ⟨fun _ s t => ?_, fun name _ s t => ?_, hpure⟩
  · have hcollect : ∀ number, table.names.getD (.list (table.columns.map Prod.fst)) ≠
        .stream number := by
      intro number hstream
      cases htable : table.names with
      | none => simp [htable] at hstream
      | some names =>
        rw [htable, Option.getD_some] at hstream
        exact hnames number (hstream ▸ htable)
    simp only [under, available, listNames, columnNames]
    cases table.namesFail with
    | true => rfl
    | false =>
      obtain ⟨items, hitems⟩ := collect_of_not_stream hcollect
      simp only [Bool.false_eq_true, if_false, hitems]
  · simp only [under, column]
    cases table.failing with
    | none => rfl
    | some failing =>
      by_cases hname : failing == name
      · simp only [hname, if_true]
      · simp only [hname, Bool.false_eq_true, if_false]

end Source

end TableAudit
