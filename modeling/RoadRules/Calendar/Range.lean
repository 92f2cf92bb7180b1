import RoadRules.Calendar.NamedCycle
import RoadRules.Fault
import RoadRules.Json

set_option autoImplicit false

/-! # Ranges between named members

A range of weekdays or months given by the names of its first and last member. -/

namespace RoadRules.Calendar

variable {ι : Type} [NamedCycle ι]

def NamedCycle.ofJson (j : Json) : Except Fault ι :=
  match j with
  | .scalar (.text s) =>
    match NamedCycle.ofName? s with
    | some i => .ok i
    | none => .error (.notAMember j.shown (NamedCycle.family ι))
  | _ => .error (.notAMember j.shown (NamedCycle.family ι))

/-- The members between two names, both included, going forward around the cycle. -/
def Selection.between (first last : Json) : Except Fault (Selection ι) := do
  let a ← NamedCycle.ofJson first
  let b ← NamedCycle.ofJson last
  return Selection.range a b

end RoadRules.Calendar
