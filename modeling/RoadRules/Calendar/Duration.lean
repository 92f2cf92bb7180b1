import RoadRules.Fault
import RoadRules.Number.Binary64

set_option autoImplicit false

/-! # Durations

A duration is a number of microseconds, positive or negative, of less than a thousand million
days. A number of seconds is one if it does not have more days than that. The whole seconds of a
floating-point number count exactly; the rest of it is multiplied in floating point before it is
rounded to microseconds, a half to the even one. -/

namespace RoadRules.Calendar.Duration

/-- The largest number of days in a duration, in either direction. -/
def longestDays : Nat := 999999999

def ofMicros (micros : Int) : Except Fault Int :=
  let days := micros / (microsPerDay : Int)
  if !fitsWord 32 days then .error .durationSize
  else if longestDays < days.natAbs then .error (.durationRange days)
  else .ok micros

/-- The microseconds nearest to a finite number of seconds that is not negative. -/
def microsNear (seconds : Float) : Nat :=
  let (num, den) := (Binary64.ofFloat seconds).ratio
  let part := (Binary64.ofFloat ((seconds - seconds.floor) * 1000000.0)).ratio
  num / den * 1000000 + roundHalfEven part.1 part.2

/-- The duration of a floating-point number of seconds. -/
def ofFloat (seconds : Float) : Except Fault Int :=
  if seconds.isNaN then .error .undefinedDuration
  else if seconds.isInf then .error .endlessDuration
  else
    let micros := microsNear seconds.abs
    ofMicros (if seconds < 0.0 then -(micros : Int) else micros)

/-- The duration of a number of seconds in a document. -/
def ofSeconds : Json → Except Fault Int
  | .scalar (.integer n) => ofMicros (n * 1000000)
  | .scalar (.bool b) => ofMicros (if b then 1000000 else 0)
  | .scalar (.real n) => ofFloat n.toFloat
  | other => .error (.noDuration other.kind)

end RoadRules.Calendar.Duration
