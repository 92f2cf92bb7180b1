import RoadRules.Fault
import RoadRules.Window.Basic

set_option autoImplicit false

/-! # Searching for the edges of a window

When a window becomes active next, and when it stops being active. Both searches look at the point
they are asked about and then at the start of every following minute, up to and including the last
one within a horizon. A search fails when it would have to look beyond the calendar. -/

namespace RoadRules

open Calendar

/-- The horizon within which an activation is looked for when none is given: 31 days. -/
def activationHorizon : Int := 31 * 86400000000

/-- The horizon within which an end is looked for when none is given: 24 hours. -/
def endHorizon : Int := 86400000000

/-- A point that a calculation leads to, or the fault of a calculation that leaves the calendar. -/
def inCalendar (t : Option LocalTime) : Except Fault LocalTime :=
  t.elim (.error .beyondCalendar) .ok

/-- The first of `count` minutes, from one on, that has a property. -/
def firstMinute (p : LocalTime → Bool) : Nat → LocalTime → Except Fault (Option LocalTime)
  | 0, _ => .ok none
  | count + 1, t => do
    if p t then return some t
    firstMinute p count (← inCalendar t.nextMinute?)

/-- The first start of a minute after a point, within a horizon, that has a property. -/
def firstMinuteAfter (p : LocalTime → Bool) (t : LocalTime) (horizon : Int) :
    Except Fault (Option LocalTime) := do
  let first ← inCalendar t.startOfMinute.nextMinute?
  let limit ← inCalendar (t.add? horizon)
  if limit.micros < first.micros then return none
  firstMinute p ((limit.micros - first.micros) / microsPerMinute + 1) first

namespace TimeWindow

/-- When a window becomes active: the point itself if it is active there, else the first active
start of a minute within the horizon. -/
def nextActivation (w : TimeWindow) (t : LocalTime) (horizon : Int) :
    Except Fault (Option LocalTime) :=
  if w.isActiveAt t then .ok (some t) else firstMinuteAfter w.isActiveAt t horizon

/-- When a window that is active at a point stops being active: the first start of a minute
within the horizon at which it is not. There is none for a window that is not active. -/
def activationEnd (w : TimeWindow) (t : LocalTime) (horizon : Int) :
    Except Fault (Option LocalTime) :=
  if w.isActiveAt t then firstMinuteAfter (fun u => !w.isActiveAt u) t horizon else .ok none

/-- When a window becomes active, with the offset of the moment that is asked about. -/
def nextActivationOf (w : TimeWindow) (m : Moment) (horizon : Int) :
    Except Fault (Option Moment) :=
  (w.nextActivation m.wall horizon).map fun t => t.map fun wall => ⟨wall, m.offset⟩

/-- When a window stops being active, with the offset of the moment that is asked about. -/
def activationEndOf (w : TimeWindow) (m : Moment) (horizon : Int) :
    Except Fault (Option Moment) :=
  (w.activationEnd m.wall horizon).map fun t => t.map fun wall => ⟨wall, m.offset⟩

end TimeWindow

end RoadRules
