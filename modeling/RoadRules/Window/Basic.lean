import RoadRules.Calendar.Moment

set_option autoImplicit false

/-! # Time windows

A window says when a rule is in force: on selected weekdays, in selected months, and during a
daily range of hours. A selection without members stands for all weekdays or all months, and a
window without hours covers the whole day.

The daily range includes its start and excludes its end. A range that ends before it starts runs
past midnight, and a range that ends where it starts covers the whole day. -/

namespace RoadRules

open Calendar

/-- A daily range of hours, from an included start to an excluded end. -/
structure Hours where
  /-- The start, included. -/
  start : TimeOfDay
  /-- The end, excluded. -/
  stop : TimeOfDay
deriving DecidableEq

namespace Hours

def spansMidnight (h : Hours) : Bool := decide (h.stop.micros < h.start.micros)

def spansAllDay (h : Hours) : Bool := h.start.micros == h.stop.micros

def covers (h : Hours) (t : TimeOfDay) : Bool :=
  if h.spansAllDay then true
  else if h.spansMidnight then
    decide (h.start.micros ≤ t.micros) || decide (t.micros < h.stop.micros)
  else decide (h.start.micros ≤ t.micros) && decide (t.micros < h.stop.micros)

/-- The minutes of the day that a range touches with its whole minutes, as ranges of minutes with
the start included and the end excluded. -/
def minuteIntervals (h : Hours) : List (Nat × Nat) :=
  if h.spansAllDay then [(0, minutesPerDay)]
  else if h.spansMidnight then
    (h.start.minutes, minutesPerDay) ::
      (if 0 < h.stop.minutes then [(0, h.stop.minutes)] else [])
  else [(h.start.minutes, h.stop.minutes)]

/-- A range as text. A range that ends at midnight ends at 24:00, unless it also starts there. -/
def describe (h : Hours) : Text :=
  h.start.shortText ++ "-" ++
    (if h.stop.micros = 0 ∧ h.start ≠ h.stop then "24:00" else h.stop.shortText : Text)

end Hours

/-- When a rule is in force. -/
structure TimeWindow where
  /-- The weekdays; none means every day. -/
  days : Selection Weekday
  /-- The months; none means every month. -/
  months : Selection Month
  /-- The daily range of hours; none means the whole day. -/
  hours : Option Hours
deriving DecidableEq

namespace TimeWindow

def always : TimeWindow := ⟨.empty, .empty, none⟩

/-- Whether the daily range runs past midnight. -/
def spansMidnight (w : TimeWindow) : Bool := w.hours.any Hours.spansMidnight

def spansAllDay (w : TimeWindow) : Bool := w.hours.all Hours.spansAllDay

def isActiveAt (w : TimeWindow) (t : LocalTime) : Bool :=
  w.months.admits t.month && w.days.admits t.weekday && w.hours.all (·.covers t.time)

/-- The minutes of the day that a window covers, as ranges with the start included and the end
excluded. -/
def minuteIntervals (w : TimeWindow) : List (Nat × Nat) :=
  match w.hours with
  | none => [(0, minutesPerDay)]
  | some h => h.minuteIntervals

/-- The months of a window as text; all months and no months go without saying. -/
def monthsText (w : TimeWindow) : List Text :=
  if w.months.isEmpty || w.months.isFull then [] else [w.months.describe]

/-- The days of a window as text; no days go without saying. -/
def daysText (w : TimeWindow) : List Text :=
  if w.days.isEmpty then [] else if w.days.isFull then ["Every day"] else [w.days.describe]

def describe (w : TimeWindow) : Text :=
  let parts := w.monthsText ++ w.daysText ++ (w.hours.map Hours.describe).toList
  if parts.isEmpty then "Always" else Text.joined " " parts

def label (w : TimeWindow) : Text := "TimeWindow(" ++ w.describe ++ ")"

end TimeWindow

end RoadRules
