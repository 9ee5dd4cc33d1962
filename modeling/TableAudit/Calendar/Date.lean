namespace TableAudit

structure Date where
  year : Int
  month : Nat
  day : Nat
deriving DecidableEq, Repr

namespace Date

/-- The days of four hundred years. -/
def daysOfCycle : Nat :=
  146097

/-- The year, counted from one that begins in March, in which a day of a cycle lies. -/
def yearOfCycle (day : Nat) : Nat :=
  (day - day / 1460 + day / 36524 - day / 146096) / 365

/-- The day of a year that begins in March. -/
def dayOfYear (day : Nat) : Nat :=
  let year := yearOfCycle day
  day - (365 * year + year / 4 - year / 100)

/-- The date of a day counted from the first of March of the year zero. -/
def ofMarchDays (days : Int) : Date :=
  let cycle := days / daysOfCycle
  let day := (days % daysOfCycle).toNat
  let rest := dayOfYear day
  let march := (5 * rest + 2) / 153
  let month := if march < 10 then march + 3 else march - 9
  let year : Int := yearOfCycle day + 400 * cycle
  ⟨if month ≤ 2 then year + 1 else year, month, rest - (153 * march + 2) / 5 + 1⟩

/-- The date of a day counted from the first day of 1970. -/
def ofDays (days : Int) : Date :=
  ofMarchDays (days + 719468)

example : ofDays 0 = ⟨1970, 1, 1⟩ := by decide

example : ofDays 11016 = ⟨2000, 2, 29⟩ := by decide

example : ofDays (-1) = ⟨1969, 12, 31⟩ := by decide

end Date

end TableAudit
