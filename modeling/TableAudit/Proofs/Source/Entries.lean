import TableAudit.Proofs.Inquiry.Reports
import TableAudit.Run.CheckSet

namespace TableAudit

theorem World.entries_report (world : World) (entry : Entry) :
    (world.report entry).entries = world.entries ++ [entry] :=
  List.reverse_cons

theorem World.entries_readClock (world : World) : world.readClock.2.entries = world.entries := by
  unfold readClock
  split <;> rfl

theorem Value.entries_collect (value : Value) (world : World) :
    (value.collect world).2.entries = world.entries := by
  unfold collect
  cases value with
  | stream number => rfl
  | _ =>
    dsimp only
    split <;> rfl

theorem Callable.entries_call (target : Callable) (args : List Value) (world : World) :
    (target.call args world).2.entries = world.entries := by
  cases target with
  | library p =>
    cases p with
    | counted => rcases args with _ | ⟨first, _ | ⟨second, rest⟩⟩ <;> rfl
    | _ => rfl
  | builtin b => rfl
  | defined number path => rfl

namespace Source

theorem entries_callValue (function : Value) (args : List Value) (world : World) :
    (callValue function args world).2.entries = world.entries := by
  unfold callValue
  cases function with
  | callable target => exact target.entries_call args world
  | _ => rfl

theorem entries_columnNames (source : Source) (world : World) :
    (source.columnNames world).2.entries = world.entries := by
  unfold columnNames
  cases source with
  | table t =>
    dsimp only
    split <;> rfl
  | space names get => exact entries_callValue names [] world
  | _ => rfl

theorem entries_available (source : Source) (world : World) :
    (source.available world).2.entries = world.entries := by
  have hnames := source.entries_columnNames world
  unfold available listNames
  generalize source.columnNames world = given at hnames ⊢
  obtain ⟨error | names, reached⟩ := given
  · exact hnames
  · exact (names.entries_collect reached).trans hnames

theorem entries_materialize (column : Value) (world : World) :
    (materialize column world).2.entries = world.entries := by
  unfold materialize
  split
  · rfl
  · exact column.entries_collect world

theorem entries_column (source : Source) (name : Value) (world : World) :
    (source.column name world).2.entries = world.entries := by
  cases source with
  | mapping columns =>
    unfold column
    dsimp only
    split
    · exact entries_materialize _ world
    · rfl
  | table t =>
    unfold column
    dsimp only
    split
    · split <;> rfl
    · rfl
  | hybrid => rfl
  | frame labels body =>
    unfold column
    dsimp only
    split
    · exact Value.entries_collect _ world
    · exact Value.entries_collect _ world
    · rfl
  | space names get => exact entries_callValue get [name] world

/-- In the world a source and the predicates report nothing of their own. -/
theorem logs_surroundings (source : Source) : source.surroundings.Logs World.entries id :=
  ⟨source.entries_available, fun name => source.entries_column (.text name),
    Callable.entries_call, fun entry world => world.entries_report entry⟩

end Source

end TableAudit
