import RoadRules.Calendar.NamedCycle

set_option autoImplicit false

/-! # Weekdays

The seven days of the week in their order from Monday, with their two-letter names. -/

namespace RoadRules.Calendar

/-- A day of the week. -/
inductive Weekday where
  | monday | tuesday | wednesday | thursday | friday | saturday | sunday
deriving DecidableEq, Repr

namespace Weekday

def week : List Weekday := [monday, tuesday, wednesday, thursday, friday, saturday, sunday]

def abbreviation : Weekday → String
  | monday => "Mo"
  | tuesday => "Tu"
  | wednesday => "We"
  | thursday => "Th"
  | friday => "Fr"
  | saturday => "Sa"
  | sunday => "Su"

instance : NamedCycle Weekday where
  members := week
  name := abbreviation
  family := "Weekday"
  nodup := by decide
  complete := by intro d; cases d <;> decide
  name_injective := by intro a b; cases a <;> cases b <;> decide

/-- The weekday that is a number of days after Monday. -/
def ofNumber (n : Nat) : Weekday := week.getD (n % 7) monday

def workingDays : Selection Weekday :=
  .ofList [monday, tuesday, wednesday, thursday, friday]

def weekend : Selection Weekday := .ofList [saturday, sunday]

end Weekday

end RoadRules.Calendar
