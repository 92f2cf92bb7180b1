import RoadRules.Fault
import RoadRules.Text.Lowercase
import RoadRules.Window.Basic

set_option autoImplicit false

/-! # Common windows

Windows that go by a name. -/

namespace RoadRules

open Calendar

def Hours.wholeHours (first last : Nat) : Hours :=
  ⟨.ofMicros (first * 3600000000), .ofMicros (last * 3600000000)⟩

def commonWindows : List (String × TimeWindow) :=
  [("business_hours", ⟨Weekday.workingDays, .empty, some (.wholeHours 9 17)⟩),
    ("weekends", ⟨Weekday.weekend, .empty, none⟩),
    ("night_hours", ⟨.empty, .empty, some (.wholeHours 22 6)⟩)]

/-- The common window of a name; the case of its letters does not count. -/
def TimeWindow.named (name : Text) : Except Fault TimeWindow :=
  match commonWindows.find? fun w => Text.ofString w.1 == Text.lower name with
  | some w => .ok w.2
  | none => .error (.unknownWindow name)

end RoadRules
