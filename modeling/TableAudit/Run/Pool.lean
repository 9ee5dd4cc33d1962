import TableAudit.Run.Inquiry

namespace TableAudit

/-- The state of a pool: the inquiry each worker is at, with its number among all; those that wait;
    and the results so far. -/
structure Pool (α : Type) where
  active : List (Option (Nat × Inquiry α))
  waiting : List (Nat × Inquiry α)
  finished : List (Nat × Except Fault α)

namespace Pool

variable {α σ : Type}

/-- Inquiries with their numbers. -/
def numbered (inquiries : List (Inquiry α)) : List (Nat × Inquiry α) :=
  inquiries.zipIdx.map fun (inquiry, index) => (index, inquiry)

/-- A pool in which all inquiries wait. -/
def start (workers : Nat) (inquiries : List (Inquiry α)) : Pool α :=
  ⟨List.replicate workers none, numbered inquiries, []⟩

/-- One turn of a worker: it takes an inquiry if it has none, makes one step, and lays down the
    result of an inquiry that is at its end. -/
def turn (around : Surroundings σ) (worker : Nat) (pool : Pool α) (state : σ) : Pool α × σ :=
  match pool.active[worker]? with
  | none => (pool, state)
  | some none =>
    match pool.waiting with
    | [] => (pool, state)
    | next :: rest =>
      ({ pool with active := pool.active.set worker (some next), waiting := rest }, state)
  | some (some (index, inquiry)) =>
    match inquiry.result? with
    | some result =>
      ({ pool with
          active := pool.active.set worker none
          finished := pool.finished ++ [(index, result)] }, state)
    | none =>
      let (inquiry, state) := inquiry.step (around.onWorker worker) state
      ({ pool with active := pool.active.set worker (some (index, inquiry)) }, state)

/-- The turns that a schedule gives, worker by worker. -/
def follow (around : Surroundings σ) : List Nat → Pool α → σ → Pool α × σ
  | [], pool, state => (pool, state)
  | worker :: rest, pool, state =>
    let (pool, state) := pool.turn around worker state
    follow around rest pool state

/-- Runs inquiries one after the other, each to its end, on one worker. -/
def runAll (around : Surroundings σ) (worker : Nat) :
    List (Nat × Inquiry α) → σ → List (Nat × Except Fault α) × σ
  | [], state => ([], state)
  | (index, inquiry) :: rest, state =>
    let (result, state) := inquiry.run (around.onWorker worker) state
    let (results, state) := runAll around worker rest state
    ((index, result) :: results, state)

/-- Lets every worker end what it is at. -/
def finishActive (around : Surroundings σ) :
    Nat → List (Option (Nat × Inquiry α)) → σ → List (Nat × Except Fault α) × σ
  | _, [], state => ([], state)
  | worker, none :: rest, state => finishActive around (worker + 1) rest state
  | worker, some item :: rest, state =>
    let (first, state) := runAll around worker [item] state
    let (others, state) := finishActive around (worker + 1) rest state
    (first ++ others, state)

/-- Runs all that is left: first what the workers are at, then what waits. -/
def finish (around : Surroundings σ) (pool : Pool α) (state : σ) :
    List (Nat × Except Fault α) × σ :=
  let (ended, state) := finishActive around 0 pool.active state
  let (rest, state) := runAll around 0 pool.waiting state
  (pool.finished ++ ended ++ rest, state)

/-- The result of an inquiry by its number. -/
def slot? (results : List (Nat × Except Fault α)) (index : Nat) : Option (Except Fault α) :=
  (results.find? fun item => item.1 == index).map Prod.snd

/-- Runs inquiries on a number of workers. The results stand in the order of the inquiries. -/
def run (around : Surroundings σ) (workers : Nat) (schedule : List Nat)
    (inquiries : List (Inquiry α)) (state : σ) : List (Except Fault α) × σ :=
  let (pool, state) := (start workers inquiries).follow around schedule state
  let (results, state) := pool.finish around state
  ((List.range inquiries.length).filterMap (slot? results), state)

/-- The number of workers for a number of inquiries: no more than these, no more than the limit,
    and at least one. -/
def size (inquiries limit : Int) : Int :=
  max 1 (min inquiries limit)

end Pool

end TableAudit
