/-!
# The civil calendar

Days are counted from the first of January 1970 in the proleptic Gregorian calendar, in which there
is a year zero.  Counted from the first of March, the leap day is the last day of its year, so
months have a fixed start in the year and years a fixed start in a cycle of four hundred
(`dayNumber`); `ofDay` undoes it.
-/

namespace RecordTables.Calendar

/-- A date by year, month and day of the month. -/
structure Date where
  year : Int
  month : Nat
  day : Nat
  deriving DecidableEq, Repr, Inhabited

/-- Whether a year has a leap day. -/
def isLeapYear (year : Int) : Bool := year % 4 = 0 && (year % 100 != 0 || year % 400 = 0)

/-- The number of days of a month. -/
def daysInMonth (year : Int) (month : Nat) : Nat :=
  match month with
  | 2 => if isLeapYear year then 29 else 28
  | 4 | 6 | 9 | 11 => 30
  | _ => 31

/-- Whether there is such a date. -/
def Date.isValid (d : Date) : Bool :=
  1 ≤ d.month && d.month ≤ 12 && 1 ≤ d.day && d.day ≤ daysInMonth d.year d.month

/-- The days before a month, in a year that starts in March; March is month zero. -/
def daysBeforeMonth (m : Nat) : Nat := (153 * m + 2) / 5

/-- The number of a date, counted from the first of January 1970. -/
def dayNumber (d : Date) : Int :=
  let y := if d.month ≤ 2 then d.year - 1 else d.year
  let m := (d.month + 9) % 12
  365 * y + y / 4 - y / 100 + y / 400 + daysBeforeMonth m + (d.day - 1 : Int) - 719468

/-- The date of a number. -/
def ofDay (n : Int) : Date :=
  let z := n + 719468
  let cycle := z / 146097
  let inCycle := (z % 146097).toNat
  let yearOfCycle := (inCycle - inCycle / 1460 + inCycle / 36524 - inCycle / 146096) / 365
  let dayOfYear := inCycle - (365 * yearOfCycle + yearOfCycle / 4 - yearOfCycle / 100)
  let m := (5 * dayOfYear + 2) / 153
  let day := dayOfYear - daysBeforeMonth m + 1
  let month := if m < 10 then m + 3 else m - 9
  let year := (yearOfCycle : Int) + cycle * 400
  ⟨if month ≤ 2 then year + 1 else year, month, day⟩

/-- The first year of which dates are known. -/
def firstYear : Int := -262143

/-- The last year of which dates are known. -/
def lastYear : Int := 262142

/-- The number of a date that exists and lies in a known year. -/
def day? (d : Date) : Option Int :=
  if d.isValid && firstYear ≤ d.year && d.year ≤ lastYear then some (dayNumber d) else none

/-- The date of a number, if it lies in a known year. -/
def date? (n : Int) : Option Date :=
  let d := ofDay n
  if firstYear ≤ d.year && d.year ≤ lastYear then some d else none

end RecordTables.Calendar
