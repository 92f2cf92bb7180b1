import RoadRules.Calendar.NamedCycle

set_option autoImplicit false

/-! # Months

The twelve months in calendar order, with their three-letter names and their lengths. -/

namespace RoadRules.Calendar

/-- A month of the year. -/
inductive Month where
  | january | february | march | april | may | june
  | july | august | september | october | november | december
deriving DecidableEq, Repr

namespace Month

def year : List Month :=
  [january, february, march, april, may, june, july, august, september, october, november,
    december]

def abbreviation : Month → String
  | january => "Jan"
  | february => "Feb"
  | march => "Mar"
  | april => "Apr"
  | may => "May"
  | june => "Jun"
  | july => "Jul"
  | august => "Aug"
  | september => "Sep"
  | october => "Oct"
  | november => "Nov"
  | december => "Dec"

instance : NamedCycle Month where
  members := year
  name := abbreviation
  family := "Month"
  nodup := by decide
  complete := by intro m; cases m <;> decide
  name_injective := by intro a b; cases a <;> cases b <;> decide

/-- The place of a month in the year, from one to twelve. -/
def number : Month → Nat
  | january => 1
  | february => 2
  | march => 3
  | april => 4
  | may => 5
  | june => 6
  | july => 7
  | august => 8
  | september => 9
  | october => 10
  | november => 11
  | december => 12

def ofNumber? (n : Nat) : Option Month := if n = 0 then none else year[n - 1]?

def length (leap : Bool) : Month → Nat
  | january | march | may | july | august | october | december => 31
  | april | june | september | november => 30
  | february => if leap then 29 else 28

theorem ofNumber?_number (m : Month) : ofNumber? m.number = some m := by
  cases m <;> rfl

theorem le_length (leap : Bool) (m : Month) : 28 ≤ m.length leap := by
  cases m <;> cases leap <;> decide

end Month

end RoadRules.Calendar
