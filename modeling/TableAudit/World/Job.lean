import TableAudit.Check.Fault
import TableAudit.World.Basic

namespace TableAudit

abbrev Job (α : Type) :=
  StateM World (Except Fault α)

namespace Job

variable {α β : Type}

def ofExcept (result : Except Fault α) : Job α := fun world =>
  (result, world)

def fault (fault : Fault) : Job α :=
  ofExcept (.error fault)

/-- An action whose error is a fault. -/
def ofAct (act : Act α) : Job α := fun world =>
  match act world with
  | (.ok value, world) => (.ok value, world)
  | (.error error, world) => (.error (.raised error), world)

/-- A reading of fields whose issues are a fault. -/
def ofReading (reading : StateM World (Except (List Issue) α)) : Job α := fun world =>
  match reading world with
  | (.ok value, world) => (.ok value, world)
  | (.error issues, world) => (.error (.invalid issues), world)

/-- Goes on with the result of a job, unless it is a fault. -/
def andThen (job : Job α) (next : α → Job β) : Job β := fun world =>
  match job world with
  | (.ok value, world) => next value world
  | (.error fault, world) => (.error fault, world)

end Job

end TableAudit
