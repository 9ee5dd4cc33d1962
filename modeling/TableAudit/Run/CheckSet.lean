import TableAudit.Run.Check
import TableAudit.Run.Pool
import TableAudit.Run.Timer
import TableAudit.Source.Basic
import TableAudit.Summary.Basic
import TableAudit.World.Job

namespace TableAudit

/-- How the checks of a set are run. -/
structure Mode where
  concurrent : Bool := false
  /-- The most workers; none for as many as there are processors. -/
  maxWorkers : Option Int := none
  processors : Nat := 1
  /-- Whose turns come first when several workers are at work. -/
  schedule : List Nat := []

namespace Mode

def limit (mode : Mode) : Int :=
  mode.maxWorkers.getD (max 1 mode.processors : Nat)

/-- The number of workers for a number of checks. -/
def workers (mode : Mode) (checks : Nat) : Nat :=
  (Pool.size checks mode.limit).toNat

end Mode

namespace CheckSet

variable {σ : Type}

/-- Runs inquiries one after the other; the first fault ends all. -/
def runInOrder (around : Surroundings σ) :
    List (Inquiry Outcome) → σ → Except Fault (List Outcome) × σ
  | [], state => (.ok [], state)
  | inquiry :: rest, state =>
    match inquiry.run around state with
    | (.error fault, state) => (.error fault, state)
    | (.ok outcome, state) =>
      match runInOrder around rest state with
      | (.error fault, state) => (.error fault, state)
      | (.ok outcomes, state) => (.ok (outcome :: outcomes), state)

/-- The results of all inquiries, or the first fault among them. -/
def firstFault : List (Except Fault Outcome) → Except Fault (List Outcome)
  | [] => .ok []
  | .error fault :: _ => .error fault
  | .ok outcome :: rest => (firstFault rest).map (outcome :: ·)

def poolEntry (checks workers : Nat) : Entry :=
  Check.engineEntry .debug
    ("Running " ++ toString checks ++ " checks on " ++ toString workers ++ " worker thread(s)")

/-- Runs the checks of a set in given surroundings. -/
def runIn (around : Surroundings σ) (mode : Mode) (set : CheckSet) (state : σ) :
    Except Fault (Labelled Outcome) × σ :=
  let inquiries := set.checks.map Check.inquire
  let byName := fun (outcomes : List Outcome) => Labelled.ofList (set.names.zip outcomes)
  if mode.concurrent && 1 < set.checks.length then
    let workers := mode.workers set.checks.length
    let state := around.report (poolEntry set.checks.length workers) state
    let (results, state) := Pool.run around workers mode.schedule inquiries state
    ((firstFault results).map byName, state)
  else
    let (results, state) := runInOrder around inquiries state
    (results.map byName, state)

end CheckSet

/-- What gives the verdicts of predicates. -/
abbrev Judge := Callable → List Value → Act Bool

/-- The surroundings that a source makes in the world, with the verdicts of a judge. -/
def Source.under (source : Source) (judge : Judge) : Surroundings World where
  names := source.available
  column := fun name => source.column (.text name)
  ask := judge
  report := World.report

/-- The surroundings that a source makes in the world. -/
def Source.surroundings (source : Source) : Surroundings World :=
  source.under Callable.evaluate

/-- The source of data; data that is none is a fault. -/
def Source.adapt (data : Data) : Job Source :=
  .ofAct (Source.ofData data)

/-- Runs one check on a source, with the verdicts of a judge. -/
def Check.runUnder (judge : Judge) (check : Check) (source : Source) : Job Outcome :=
  check.inquire.run (source.under judge)

/-- Runs one check on a source. -/
def Check.runOn (check : Check) (source : Source) : Job Outcome :=
  check.runUnder Callable.evaluate source

namespace CheckSet

/-- Runs the checks of a set on data, with the verdicts of a judge. -/
def runUnder (judge : Judge) (set : CheckSet) (data : Data) (mode : Mode) :
    Job (Labelled Outcome) :=
  (Source.adapt data).andThen fun source => runIn (source.under judge) mode set

/-- Runs the checks of a set on data. -/
def runOn (set : CheckSet) (data : Data) (mode : Mode) : Job (Labelled Outcome) :=
  set.runUnder Callable.evaluate data mode

def summaryEntry (summary : Summary) : Entry :=
  { level := .info
    reporter := .engine
    message :=
      "Check set " ++ Text.Quoted.quote summary.name ++ ": " ++ toString summary.passedCount ++
        "/" ++ toString summary.outcomes.size ++ " checks passed in " ++
        Decimal.fixed 3 summary.elapsed ++ "s"
    checkSet := some summary.name }

/-- Runs the checks of a set in given surroundings and sums up, with the time that a timer has come
    to by the next reading of a clock. -/
def summarizeIn {σ : Type} (around : Surroundings σ) (clock : σ → Float × σ) (timer : Timer)
    (mode : Mode) (set : CheckSet) (state : σ) : Except Fault Summary × σ :=
  match set.runIn around mode state with
  | (.error fault, state) => (.error fault, state)
  | (.ok outcomes, state) =>
    let (stop, state) := clock state
    let summary : Summary := ⟨set.name, outcomes, timer.elapsed stop⟩
    (.ok summary, around.report (summaryEntry summary) state)

/-- Runs the checks of a set on data and sums up. -/
def summarize (set : CheckSet) (data : Data) (mode : Mode) : Job Summary := fun world =>
  let (start, world) := world.readClock
  let summed := (Source.adapt data).andThen fun source =>
    set.summarizeIn source.surroundings World.readClock ⟨start⟩ mode
  summed world

end CheckSet

end TableAudit
