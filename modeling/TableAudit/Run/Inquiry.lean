import TableAudit.Check.Fault
import TableAudit.Log.Entry

namespace TableAudit

/-- A computation that asks its surroundings for what it needs. An error of the source ends it. -/
inductive Inquiry (α : Type)
  | done (result : α)
  | fail (fault : Fault)
  | names (next : List Value → Inquiry α)
  | column (name : String) (next : Value → Inquiry α)
  | ask (predicate : Callable) (values : List Value) (next : Except Raised Bool → Inquiry α)
  | report (entry : Entry) (next : Inquiry α)

namespace Inquiry

variable {α β σ : Type}

def bind : Inquiry α → (α → Inquiry β) → Inquiry β
  | done result, f => f result
  | fail fault, _ => fail fault
  | names next, f => names fun answer => (next answer).bind f
  | column name next, f => column name fun answer => (next answer).bind f
  | ask predicate values next, f => ask predicate values fun answer => (next answer).bind f
  | report entry next, f => report entry (next.bind f)

instance : Monad Inquiry where
  pure := done
  bind := bind

/-- A result that may be a fault. -/
def ofExcept : Except Fault α → Inquiry α
  | .ok result => done result
  | .error fault => fail fault

end Inquiry

/-- What answers the steps of inquiries, and how answering changes its state. -/
structure Surroundings (σ : Type) where
  names : σ → Except Raised (List Value) × σ
  column : String → σ → Except Raised Value × σ
  ask : Callable → List Value → σ → Except Raised Bool × σ
  report : Entry → σ → σ

/-- The surroundings as a worker of a concurrent run sees them: what it reports bears its number. -/
def Surroundings.onWorker {σ : Type} (around : Surroundings σ) (number : Nat) : Surroundings σ :=
  { around with report := fun entry => around.report (entry.onWorker number) }

namespace Inquiry

variable {α σ : Type}

/-- One step of an inquiry that is not at its end. An error that ends the program ends the inquiry;
    any other error of a predicate is an answer. -/
def step (around : Surroundings σ) : Inquiry α → σ → Inquiry α × σ
  | done result, state => (done result, state)
  | fail fault, state => (fail fault, state)
  | names next, state =>
    match around.names state with
    | (.ok answer, state) => (next answer, state)
    | (.error error, state) => (fail (.raised error), state)
  | column name next, state =>
    match around.column name state with
    | (.ok answer, state) => (next answer, state)
    | (.error error, state) => (fail (.raised error), state)
  | ask predicate values next, state =>
    match around.ask predicate values state with
    | (.ok answer, state) => (next (.ok answer), state)
    | (.error error, state) =>
      if error.escapes then (fail (.raised error), state) else (next (.error error), state)
  | report entry next, state => (next, around.report entry state)

/-- The result of an inquiry that is at its end. -/
def result? : Inquiry α → Option (Except Fault α)
  | done result => some (.ok result)
  | fail fault => some (.error fault)
  | _ => none

/-- Runs an inquiry to its end. -/
def run (around : Surroundings σ) : Inquiry α → σ → Except Fault α × σ
  | done result, state => (.ok result, state)
  | fail fault, state => (.error fault, state)
  | names next, state =>
    match around.names state with
    | (.ok answer, state) => (next answer).run around state
    | (.error error, state) => (.error (.raised error), state)
  | column name next, state =>
    match around.column name state with
    | (.ok answer, state) => (next answer).run around state
    | (.error error, state) => (.error (.raised error), state)
  | ask predicate values next, state =>
    match around.ask predicate values state with
    | (.ok answer, state) => (next (.ok answer)).run around state
    | (.error error, state) =>
      if error.escapes then (.error (.raised error), state)
      else (next (.error error)).run around state
  | report entry next, state => next.run around (around.report entry state)

end Inquiry

end TableAudit
