import RoadRules.Restriction.Basic
import RoadRules.Window.Document

set_option autoImplicit false

/-! # Restrictions in documents

A restriction may be given part by part instead of as a tag: its key and value, a list of windows,
comparisons of weight and height, and the raw text. The windows are read first, one after the
other; then the other fields are checked together. -/

namespace RoadRules.Restriction

variable {α : Type} [Quantity α]

def windowsOfMembers (members : List (Text × Json)) : Except Fault (List TimeWindow) :=
  match Json.get? members "windows" with
  | some (.array items) => items.mapM TimeWindow.ofJson
  | _ => .ok []

/-- A restriction from the members of an object, with its windows already read. -/
def ofFields (members : List (Text × Json)) (windows : List TimeWindow) :
    Checked (Restriction α) :=
  let comparison : Json → Checked (Option (Comparison α)) := Json.nullable Comparison.ofJson
  ((Json.required members "tag_key" Json.textField).both
    ((Json.required members "value" Json.textField).both
      ((Json.optional members "weight" none comparison).both
        ((Json.optional members "height" none comparison).both
          (Json.optional members "raw_value" [] Json.textField))))).map fun p =>
    ⟨p.1, p.2.1, windows, p.2.2.1, p.2.2.2.1, p.2.2.2.2⟩

/-- A restriction from the members of an object. -/
def ofMembers (members : List (Text × Json)) : Except Fault (Restriction α) := do
  let windows ← windowsOfMembers members
  match ofFields members windows with
  | .good r => .ok r
  | .bad problems => .error (.invalid problems)

end RoadRules.Restriction
