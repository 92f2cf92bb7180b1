import RoadRules.Json
import RoadRules.Problem

set_option autoImplicit false

/-! # Fields of documents

Reading the members of an object as fields: required ones, optional ones, texts, and lists that
stand for sets. The name of a field leads to the problems found in it. -/

namespace RoadRules.Json

variable {β : Type}

def required (members : List (Text × Json)) (name : String) (read : Json → Checked β) :
    Checked β :=
  (match get? members name with
    | some j => read j
    | none => .fail .missing).under name

/-- A field that may be missing, with the value that it then has. -/
def optional (members : List (Text × Json)) (name : String) (default : β)
    (read : Json → Checked β) : Checked β :=
  match get? members name with
  | some j => (read j).under name
  | none => .good default

def nullable (read : Json → Checked β) : Json → Checked (Option β)
  | .scalar .null => .good none
  | j => (read j).map some

def textField : Json → Checked Text
  | .scalar (.text s) => .good s
  | _ => .fail .stringType

/-- A text out of a family of names. A text with a surrogate in it is not looked up. -/
def nameField (kind : Problem.Kind) (ofName? : Text → Option β) : Json → Checked β
  | .scalar (.text s) =>
    if s.hasSurrogate then .fail .stringUnicode
    else
      match ofName? s with
      | some v => .good v
      | none => .fail kind
  | _ => .fail kind

def setField (item : Json → Checked β) : Json → Checked (List β)
  | .array items => Checked.all item 0 items
  | _ => .fail .setType

end RoadRules.Json
