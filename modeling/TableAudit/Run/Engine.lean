import TableAudit.Report.Layout
import TableAudit.Run.CheckSet
import TableAudit.Settings.Load

namespace TableAudit

structure Engine where
  settings : Settings

namespace Engine

/-- An engine with settings that are loaded. -/
def load (origin : Settings.Origin) : Job Engine :=
  (Settings.load origin).andThen fun settings => Job.ofExcept (.ok ⟨settings⟩)

/-- The mode of a run; what is said of concurrency overrides the settings. -/
def mode (engine : Engine) (concurrent : Option Bool) (processors : Nat) : Mode :=
  { concurrent := concurrent.getD engine.settings.concurrent
    maxWorkers := engine.settings.maxWorkers.map Subtype.val
    processors := processors }

def run (engine : Engine) (set : CheckSet) (data : Data) (concurrent : Option Bool)
    (processors : Nat) : Job Summary :=
  set.summarize data (engine.mode concurrent processors)

def report (engine : Engine) (summary : Summary) : String :=
  summary.report engine.settings.failurePreview.val

end Engine

end TableAudit
