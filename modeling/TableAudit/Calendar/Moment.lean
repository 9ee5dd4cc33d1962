import TableAudit.Calendar.Date
import TableAudit.Decimal.Notation
import TableAudit.Value.Number

namespace TableAudit

/-- A second with the microseconds after it. -/
structure Moment where
  date : Date
  /-- The second of the day. -/
  second : Nat
  micros : Nat
deriving DecidableEq, Repr

namespace Moment

/-- The moment so many microseconds after a second. -/
def ofSeconds (seconds : Int) (micros : Nat) : Moment :=
  ⟨Date.ofDays (seconds / 86400), (seconds % 86400).toNat, micros⟩

def timeText (m : Moment) : String :=
  Decimal.padded 2 (m.second / 3600) ++ ":" ++ Decimal.padded 2 (m.second / 60 % 60) ++ ":" ++
    Decimal.padded 2 (m.second % 60)

/-- The date with at least so many digits for the year. -/
def dateText (yearWidth : Nat) (m : Moment) : String :=
  let sign := if m.date.year < 0 then "-" else ""
  sign ++ Decimal.padded yearWidth m.date.year.natAbs ++ "-" ++ Decimal.padded 2 m.date.month ++
    "-" ++ Decimal.padded 2 m.date.day

/-- The microseconds behind a point, unless there are none. -/
def microsText (m : Moment) : String :=
  if m.micros = 0 then "" else "." ++ Decimal.padded 6 m.micros

/-- Date and time with the offset of universal time. -/
def isoText (m : Moment) : String :=
  m.dateText 4 ++ "T" ++ m.timeText ++ m.microsText ++ "+00:00"

/-- The microseconds in the fraction of a number of seconds: their number is first rounded to a
    float, then to the nearest whole number, ties to even. -/
def microsOf (size : Decimal.Dyadic) : Nat :=
  let fraction := size.num % size.den
  if fraction = 0 then 0
  else
    let scaled := Decimal.nearest (fraction * 1000000) size.den
    Decimal.roundDiv scaled.num scaled.den

/-- The whole seconds of a time and its microseconds; a fraction below zero belongs to the second
    before. -/
def splitMicros (seconds : Float) (whole : Int) : Int × Nat :=
  let micros : Int :=
    match Decimal.Binary.ofFloat seconds with
    | .finite negative size => if negative then -(microsOf size : Int) else microsOf size
    | _ => 0
  if 1000000 ≤ micros then (whole + 1, (micros - 1000000).toNat)
  else if micros < 0 then (whole - 1, (micros + 1000000).toNat)
  else (whole, micros.toNat)

def beyondClock : Raised :=
  .of .overflowError "timestamp out of range for platform time_t"

def beyondCalendar : Raised :=
  ⟨.osError, [.int 75, .text "Value too large for defined data type"]⟩

def badYear (year : Int) : Raised :=
  .of .valueError ("year " ++ toString year ++ " is out of range")

/-- The first second that no clock counts. -/
def clockEnd : Int :=
  Int.ofNat (Decimal.pow2 63)

/-- The first year, counted from 1900, that no calendar has. -/
def calendarEnd : Int :=
  Int.ofNat (Decimal.pow2 31)

/-- The moment of a time in seconds. Years have one to four digits; times that no clock counts, or
    no calendar, are other errors. -/
def ofFloat (seconds : Float) : Except Raised Moment := do
  let whole ← (Number.float seconds).truncate
  let (whole, micros) := splitMicros seconds whole
  if whole < -clockEnd ∨ clockEnd ≤ whole then throw beyondClock
  let m := ofSeconds whole micros
  let year := m.date.year - 1900
  if year < -calendarEnd ∨ calendarEnd ≤ year then throw beyondCalendar
  if m.date.year < 1 ∨ 9999 < m.date.year then throw (badYear m.date.year)
  return m

end Moment

end TableAudit
