import RoadRules.Text.Digit

set_option autoImplicit false

/-! # Times of day

A time of day is a number of microseconds since midnight. Its hour, minute, second and
microsecond are read off by division, and the order of times is the order of the numbers. -/

namespace RoadRules.Calendar

def microsPerMinute : Nat := 60000000

def microsPerDay : Nat := 86400000000

def minutesPerDay : Nat := 1440

/-- A time of day, to the microsecond. It carries no time zone: windows that are parsed never give
one, and a document that does is refused. -/
@[ext] structure TimeOfDay where
  /-- The microseconds since midnight. -/
  micros : Nat
  /-- A day has no more of them. -/
  micros_lt : micros < microsPerDay
deriving DecidableEq

/-- The part of a time of day that is out of its range. -/
inductive ClockField where
  | hour | minute | second | microsecond
deriving DecidableEq, Repr

namespace TimeOfDay

def midnight : TimeOfDay := ⟨0, by decide⟩

/-- The time of day at a number of microseconds on an endless clock. -/
def ofMicros (n : Nat) : TimeOfDay := ⟨n % microsPerDay, Nat.mod_lt _ (by decide)⟩

/-- The time with the given parts, each of which has to be in its range. -/
def ofParts? (hour minute second micro : Nat) : Option TimeOfDay :=
  if hour < 24 ∧ minute < 60 ∧ second < 60 ∧ micro < 1000000 then
    some (ofMicros (((hour * 60 + minute) * 60 + second) * 1000000 + micro))
  else none

/-- The time with the given parts, or the first part that is out of its range. -/
def ofFields (hour minute second micro : Int) : Except ClockField TimeOfDay :=
  if hour < 0 ∨ 23 < hour then .error .hour
  else if minute < 0 ∨ 59 < minute then .error .minute
  else if second < 0 ∨ 59 < second then .error .second
  else if micro < 0 ∨ 999999 < micro then .error .microsecond
  else
    .ok (ofMicros (((hour.toNat * 60 + minute.toNat) * 60 + second.toNat) * 1000000
      + micro.toNat))

def hour (t : TimeOfDay) : Nat := t.micros / 3600000000

def minute (t : TimeOfDay) : Nat := t.micros / 60000000 % 60

def second (t : TimeOfDay) : Nat := t.micros / 1000000 % 60

def microsecond (t : TimeOfDay) : Nat := t.micros % 1000000

def minutes (t : TimeOfDay) : Nat := t.micros / microsPerMinute

def isWholeMinute (t : TimeOfDay) : Bool := t.micros % microsPerMinute == 0

def shortText (t : TimeOfDay) : Text :=
  Text.twoDigits t.hour ++ ":" ++ Text.twoDigits t.minute

/-- Hour, minute and second, two digits each, and six digits of microseconds if there are any. -/
def text (t : TimeOfDay) : Text :=
  t.shortText ++ ":" ++ Text.twoDigits t.second ++
    (if t.microsecond = 0 then [] else "." ++ Text.paddedDigits 6 t.microsecond : Text)

end TimeOfDay

end RoadRules.Calendar
