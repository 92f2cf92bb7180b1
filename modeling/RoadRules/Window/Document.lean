import RoadRules.Fault
import RoadRules.Json.Field
import RoadRules.Window.Basic

set_option autoImplicit false

/-! # Windows in documents

A window in a document is an object with the names of its days and months, and a start and an end
that are lists of hour, minute and, where they are given, second and microsecond. The times are
read before anything else; start and end have to be given together, which is checked last. -/

namespace RoadRules

open Calendar

/-- The whole number in a part of a time, of at most thirty-two bits. -/
def clockPart : Json → Except Fault Int
  | .scalar (.integer n) =>
    if fitsWord 32 n then .ok n else .error (.clockSize n)
  | .scalar (.bool b) => .ok (if b then 1 else 0)
  | other => .error (.clockPart other.kind)

/-- The parts of a time; an object stands for the list of its names, and a text for the list of
its characters. -/
def clockParts : Json → Except Fault (List Json)
  | .array parts => .ok parts
  | .object members => .ok (members.map fun m => .text m.1)
  | .scalar (.text s) => .ok (s.map fun c => .text [c])
  | other => .error (.noClock other.kind)

/-- A time of day from a list of hour, minute, second and microsecond, missing ones being zero.
Behind them only `null` may stand. -/
def clockOfParts (parts : List Json) : Except Fault TimeOfDay := do
  if 6 < parts.length then throw (.clockLength parts.length)
  let numbers ← (parts.take 4).mapM clockPart
  if 5 < parts.length then throw (.clockLength parts.length)
  let part (i : Nat) : Int := numbers.getD i 0
  let t ← (TimeOfDay.ofFields (part 0) (part 1) (part 2) (part 3)).mapError Fault.clockRange
  match parts[4]? with
  | none | some (.scalar .null) => return t
  | some other => throw (.clockZone other.kind)

/-- A time of day in a document; `null` is none. -/
def clockOfJson : Json → Except Fault (Option TimeOfDay)
  | .scalar .null => .ok none
  | j => do return some (← clockOfParts (← clockParts j))

def selectionOfJson {ι : Type} [NamedCycle ι] (j : Json) : Checked (Selection ι) :=
  (Json.setField (Json.nameField .enum NamedCycle.ofName?) j).map Selection.ofList

namespace TimeWindow

/-- The daily range between two times that are given together or not at all. -/
def hoursBetween? : Option TimeOfDay → Option TimeOfDay → Option (Option Hours)
  | some start, some stop => some (some ⟨start, stop⟩)
  | none, none => some none
  | _, _ => none

/-- The window with the given days, months and times, as far as they are in order. -/
def ofChecked (selections : Checked (Selection Weekday × Selection Month))
    (start stop : Option TimeOfDay) : Checked TimeWindow :=
  match selections with
  | .bad problems => .bad problems
  | .good (days, months) =>
    match hoursBetween? start stop with
    | some hours => .good ⟨days, months, hours⟩
    | none => .fail .value

def ofMembers (members : List (Text × Json)) : Except Fault TimeWindow := do
  let start ← clockOfJson ((Json.get? members "start").getD .null)
  let stop ← clockOfJson ((Json.get? members "end").getD .null)
  let selections := (Json.optional members "days" .empty selectionOfJson).both
    (Json.optional members "months" .empty selectionOfJson)
  match ofChecked selections start stop with
  | .good w => .ok w
  | .bad problems => .error (.invalid problems)

def ofJson : Json → Except Fault TimeWindow
  | .object members => ofMembers members
  | _ => .error (.invalid [⟨[], .modelType⟩])

end TimeWindow

end RoadRules
