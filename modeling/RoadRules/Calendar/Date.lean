import RoadRules.Calendar.Month
import RoadRules.Calendar.Weekday
import RoadRules.Text.Digit

set_option autoImplicit false

/-! # Dates

The proleptic Gregorian calendar from the first of January of year 1, a Monday, to the end of year
9999. Days are numbered from zero; `Date.dayNumber` and `Date.ofDayNumber` go back and forth
between a date and its number. The way back divides by the lengths of the cycles of four hundred,
one hundred, four and one years; the last day of a century or leap cycle would fall into a fifth
part of a length that has only four, and is kept in the fourth. -/

namespace RoadRules.Calendar

/-- A date: the year, the month, and the day of the month from one on. -/
structure Date where
  year : Nat
  month : Month
  day : Nat
deriving DecidableEq, Repr

def isLeap (year : Nat) : Bool := year % 4 == 0 && (year % 100 != 0 || year % 400 == 0)

def lastYear : Nat := 9999

/-- The number of days in the years before one. -/
def daysBeforeYear (year : Nat) : Nat :=
  let past := year - 1
  365 * past + past / 4 - past / 100 + past / 400

def totalDays : Nat := 3652059

namespace Date

/-- The number of days in the months before one. -/
def daysBeforeMonth (leap : Bool) (m : Month) : Nat :=
  ((Month.year.takeWhile (· != m)).map (Month.length leap)).foldr (· + ·) 0

def isValid (d : Date) : Bool :=
  decide (1 ≤ d.year) && decide (d.year ≤ lastYear) && decide (1 ≤ d.day) &&
    decide (d.day ≤ d.month.length (isLeap d.year))

def dayNumber (d : Date) : Nat :=
  daysBeforeYear d.year + daysBeforeMonth (isLeap d.year) d.month + (d.day - 1)

/-- The month that a day of the year falls into, and the day of that month. -/
def monthAt (leap : Bool) : List Month → Nat → Month × Nat
  | [], n => (.december, n + 1)
  | m :: rest, n => if n < m.length leap then (m, n + 1) else monthAt leap rest (n - m.length leap)

/-- The year that a day falls into, and the number of the day in that year from zero. -/
def yearAt (n : Nat) : Nat × Nat :=
  let fourHundreds := n / 146097
  let n := n % 146097
  let hundreds := min (n / 36524) 3
  let n := n - 36524 * hundreds
  let fours := n / 1461
  let n := n % 1461
  let ones := min (n / 365) 3
  (400 * fourHundreds + 100 * hundreds + 4 * fours + ones + 1, n - 365 * ones)

/-- The date with a given number of days before it. -/
def ofDayNumber (n : Nat) : Date :=
  let (year, rest) := yearAt n
  let (month, day) := monthAt (isLeap year) Month.year rest
  ⟨year, month, day⟩

/-- The weekday of the day with a given number. -/
def weekdayOf (dayNumber : Nat) : Weekday := .ofNumber dayNumber

/-- The date of a day of a numbered week. Weeks begin on Monday, and week one is the week with
the first Thursday of the year; it may begin in the year before, and a year has a week 53 only if
it begins on a Thursday, or on a Wednesday and has a leap day. -/
def ofWeek? (year week day : Nat) : Option Date :=
  let first := daysBeforeYear year
  let offset := first % 7
  let long := offset == 3 || (offset == 2 && isLeap year)
  if year = 0 ∨ lastYear < year ∨ week = 0 ∨ 53 < week ∨ (week = 53 ∧ !long) ∨ day = 0 ∨ 7 < day
  then none
  else
    let monday := if 3 < offset then first + 7 - offset else first - offset
    let date := ofDayNumber (monday + 7 * (week - 1) + (day - 1))
    if date.isValid then some date else none

/-- A date as digits: four for the year, two each for month and day. -/
def text (d : Date) : Text :=
  Text.paddedDigits 4 d.year ++ "-" ++ Text.twoDigits d.month.number ++ "-" ++
    Text.twoDigits d.day

end Date

end RoadRules.Calendar
