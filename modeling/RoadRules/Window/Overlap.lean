import RoadRules.Window.Basic

set_option autoImplicit false

/-! # Overlapping windows

Whether two windows may be active together: they share a day, a month and a minute of the day. A
range past midnight counts for the day it starts on only. -/

namespace RoadRules

open Calendar

/-- Whether two ranges of minutes share a point. -/
def intervalsMeet (a b : Nat × Nat) : Bool := decide (a.1 < b.2) && decide (b.1 < a.2)

/-- Whether two windows may be active together. -/
def TimeWindow.overlaps (v w : TimeWindow) : Bool :=
  !v.days.apart w.days && !v.months.apart w.months &&
    v.minuteIntervals.any fun a => w.minuteIntervals.any (intervalsMeet a)

/-- The first two windows of a list, in the order of the list, that may be active together. -/
def firstOverlap : List TimeWindow → Option (TimeWindow × TimeWindow)
  | [] => none
  | w :: rest =>
    match rest.find? w.overlaps with
    | some v => some (w, v)
    | none => firstOverlap rest

end RoadRules
