import TableAudit.Log.Entry
import TableAudit.Value.Truth

namespace TableAudit

structure World where
  /-- How often the counting predicate was called. -/
  calls : Nat := 0
  /-- The calls of the tracing predicates, the last one first. -/
  traced : List (Predicate × List Value) := []
  /-- What is left of each stream, by its number; the next free number is their count. -/
  streams : List (List Value) := []
  /-- The columns that were fetched from tables, with the number of the table, the last one
      first. -/
  fetched : List (Nat × Value) := []
  /-- The next free number for a table. -/
  tables : Nat := 0
  /-- The entries reported, the last one first. -/
  reported : List Entry := []
  /-- The readings of the clock that are still to come. -/
  readings : List Float := []

/-- A computation that acts on the world and may raise an error. -/
abbrev Act (α : Type) :=
  StateM World (Except Raised α)

namespace World

/-- A new stream with these items. -/
def addStream (items : List Value) (world : World) : Value × World :=
  (.stream world.streams.length, { world with streams := world.streams ++ [items] })

/-- Takes all that is left of a stream. -/
def drain (number : Nat) (world : World) : List Value × World :=
  (world.streams.getD number [], { world with streams := world.streams.set number [] })

def addTable (world : World) : Nat × World :=
  (world.tables, { world with tables := world.tables + 1 })

def report (entry : Entry) (world : World) : World :=
  { world with reported := entry :: world.reported }

/-- The entries in the order in which they were reported. -/
def entries (world : World) : List Entry :=
  world.reported.reverse

/-- The columns fetched from a table, in their order. -/
def columnsFetched (number : Nat) (world : World) : List Value :=
  (world.fetched.filter fun item => item.1 == number).reverse.map Prod.snd

/-- The next reading of the clock: the last one repeats, and a clock without readings stands at
    zero. -/
def readClock (world : World) : Float × World :=
  match world.readings with
  | [] => (0.0, world)
  | [last] => (last, world)
  | time :: rest => (time, { world with readings := rest })

end World

/-- The items of a value, in order; a stream gives what is left of it. -/
def Value.collect (value : Value) : Act (List Value) := fun world =>
  match value with
  | .stream number =>
    let (items, world) := world.drain number
    (.ok items, world)
  | _ =>
    match value.items? with
    | some items => (.ok items, world)
    | none => (.error value.notIterable, world)

/-- Going through a value that has items gives them, and leaves the world as it is. -/
theorem Value.collect_of_items? {value : Value} {items : List Value}
    (h : value.items? = some items) (world : World) : value.collect world = (.ok items, world) := by
  unfold collect
  cases value with
  | stream number => cases h
  | _ =>
    dsimp only
    rw [h]

end TableAudit
