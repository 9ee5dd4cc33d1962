namespace TableAudit

/-- A timer; one that was never started counts from zero. -/
structure Timer where
  started : Float := 0.0

namespace Timer

/-- The time from the start to a reading of the clock, never less than zero. -/
def elapsed (timer : Timer) (now : Float) : Float :=
  let time := now - timer.started
  if time > 0.0 then time else 0.0

end Timer

end TableAudit
