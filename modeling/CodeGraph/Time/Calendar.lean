/-!
# The calendar

Days are counted from 1970-01-01. The rules of the Gregorian calendar hold for all years, also for
the year zero and negative ones.

* `Date`: year, month and day of the month;
* `Date.dayNumber`, `Date.ofDayNumber`: to and from the count of days. Years are taken to begin in
  March, so that a leap day is the last of its year.
-/

namespace CodeGraph

/-- A date of the calendar. -/
structure Date where
  year : Int
  month : Nat
  day : Nat
deriving DecidableEq, Repr

/-- Whether a year has a leap day. -/
def isLeapYear (year : Int) : Bool :=
  year % 4 == 0 && (year % 100 != 0 || year % 400 == 0)

/-- The number of days of a month. -/
def daysInMonth (year : Int) (month : Nat) : Nat :=
  if month = 2 then if isLeapYear year then 29 else 28
  else if month = 4 ∨ month = 6 ∨ month = 9 ∨ month = 11 then 30
  else 31

namespace Date

/-- The years that can be written. -/
def firstYear : Int := -262143

/-- The last year that can be written. -/
def lastYear : Int := 262142

/-- Whether there is such a date. -/
def isValid (d : Date) : Bool :=
  firstYear ≤ d.year && d.year ≤ lastYear && 1 ≤ d.month && d.month ≤ 12 && 1 ≤ d.day &&
    d.day ≤ daysInMonth d.year d.month

/-- The days of four centuries. -/
def cycleDays : Int := 146097

/-- The days from the first of March of the year zero to 1970-01-01. -/
def originDays : Int := 719468

/-- The number of days from 1970-01-01 to a date. -/
def dayNumber (d : Date) : Int :=
  let year := if d.month ≤ 2 then d.year - 1 else d.year
  let cycle := year / 400
  let yearOfCycle := year - cycle * 400
  let month : Int := if 2 < d.month then d.month - 3 else d.month + 9
  let dayOfYear := (153 * month + 2) / 5 + d.day - 1
  let dayOfCycle := yearOfCycle * 365 + yearOfCycle / 4 - yearOfCycle / 100 + dayOfYear
  cycle * cycleDays + dayOfCycle - originDays

/-- The date that lies a number of days after 1970-01-01. -/
def ofDayNumber (n : Int) : Date :=
  let days := n + originDays
  let cycle := days / cycleDays
  let dayOfCycle := days - cycle * cycleDays
  let yearOfCycle :=
    (dayOfCycle - dayOfCycle / 1460 + dayOfCycle / 36524 - dayOfCycle / 146096) / 365
  let dayOfYear := dayOfCycle - (365 * yearOfCycle + yearOfCycle / 4 - yearOfCycle / 100)
  let month := (5 * dayOfYear + 2) / 153
  let day := dayOfYear - (153 * month + 2) / 5 + 1
  let month := if month < 10 then month + 3 else month - 9
  ⟨yearOfCycle + cycle * 400 + if month ≤ 2 then 1 else 0, month.toNat, day.toNat⟩

/-- The first day number that can be written. -/
def firstDay : Int := dayNumber ⟨firstYear, 1, 1⟩

/-- The last day number that can be written. -/
def lastDay : Int := dayNumber ⟨lastYear, 12, 31⟩

end Date

example : Date.dayNumber ⟨1970, 1, 1⟩ = 0 ∧ Date.dayNumber ⟨2000, 3, 1⟩ = 11017 := by decide

example : Date.ofDayNumber 11016 = ⟨2000, 2, 29⟩ ∧ Date.ofDayNumber (-1) = ⟨1969, 12, 31⟩ := by
  decide

end CodeGraph
