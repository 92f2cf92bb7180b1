import RoadRules.Calendar.Date
import RoadRules.Calendar.TimeOfDay

set_option autoImplicit false

/-! # Moments

A `LocalTime` is a point on the local time line: a number of microseconds since the first
midnight of the calendar. Its date, weekday, month and time of day are read off that number, and
adding a duration is addition. A `Moment` also keeps the offset from universal time that it was
written with; the offset is shown again, but windows and searches only look at the local time. -/

namespace RoadRules.Calendar

/-- The number of microseconds in the calendar. -/
def calendarMicros : Nat := totalDays * microsPerDay

/-- A point on the local time line, within the calendar. -/
@[ext] structure LocalTime where
  /-- The microseconds since the first midnight of the calendar. -/
  micros : Nat
  /-- The calendar has no more of them. -/
  micros_lt : micros < calendarMicros
deriving DecidableEq

namespace LocalTime

/-- The point at a number of microseconds, if the calendar reaches that far. -/
def ofMicros? (n : Nat) : Option LocalTime :=
  if h : n < calendarMicros then some ⟨n, h⟩ else none

/-- The point at a date and a time of day; `none` if the date is not in the calendar. -/
def ofDate? (d : Date) (t : TimeOfDay) : Option LocalTime :=
  if d.isValid then ofMicros? (d.dayNumber * microsPerDay + t.micros) else none

/-- The number of whole days before the point. -/
def dayNumber (t : LocalTime) : Nat := t.micros / microsPerDay

def date (t : LocalTime) : Date := .ofDayNumber t.dayNumber

def weekday (t : LocalTime) : Weekday := Date.weekdayOf t.dayNumber

def month (t : LocalTime) : Month := t.date.month

def time (t : LocalTime) : TimeOfDay := .ofMicros t.micros

/-- The start of the minute that the point is in. -/
def startOfMinute (t : LocalTime) : LocalTime :=
  ⟨t.micros - t.micros % microsPerMinute, Nat.lt_of_le_of_lt (Nat.sub_le ..) t.micros_lt⟩

/-- The point a duration later, or earlier if the duration is negative, unless that leaves the
calendar. -/
def add? (t : LocalTime) (micros : Int) : Option LocalTime :=
  let sum := (t.micros : Int) + micros
  if sum < 0 then none else ofMicros? sum.toNat

/-- The point one minute later, unless that leaves the calendar. -/
def nextMinute? (t : LocalTime) : Option LocalTime := ofMicros? (t.micros + microsPerMinute)

/-- Date and time of day with a `T` between them. -/
def text (t : LocalTime) : Text := t.date.text ++ "T" ++ t.time.text

end LocalTime

/-- A point on the local time line with the offset from universal time it was written with. -/
structure Moment where
  /-- The local time. -/
  wall : LocalTime
  /-- The offset from universal time in microseconds, if one was written. -/
  offset : Option Int
deriving DecidableEq

namespace Moment

/-- An offset from universal time, less than a day, as text: sign, hours and minutes, and seconds
and microseconds if there are any. -/
def offsetText (micros : Int) : Text :=
  let t := TimeOfDay.ofMicros micros.natAbs
  (if micros < 0 then "-" else "+") ++
    (if t.micros % microsPerMinute = 0 then t.shortText else t.text)

def text (m : Moment) : Text := m.wall.text ++ (m.offset.map offsetText).getD []

end Moment

end RoadRules.Calendar
