import RoadRules.Json.Scalar

set_option autoImplicit false

/-! # JSON values

Values of the JSON format. The members of an object are a list in the order of the text; a name
that comes again takes the last value, which `Json.get?` sees to. -/

namespace RoadRules

/-- A JSON value. -/
inductive Json where
  | scalar (value : Scalar)
  | array (items : List Json)
  | object (members : List (Text × Json))

namespace Json

/-- The kinds of values. -/
inductive Kind where
  | null | bool | integer | real | text | array | object
deriving DecidableEq, Repr

def kind : Json → Kind
  | .scalar .null => .null
  | .scalar (.bool _) => .bool
  | .scalar (.integer _) => .integer
  | .scalar (.real _) => .real
  | .scalar (.text _) => .text
  | .array _ => .array
  | .object _ => .object

def null : Json := .scalar .null

def text (s : Text) : Json := .scalar (.text s)

/-- The last value that an object gives to a name. -/
def get? (members : List (Text × Json)) (name : Text) : Option Json :=
  (members.reverse.find? fun m => m.1 == name).map Prod.snd

mutual

def shown : Json → Text
  | .scalar v => v.shown
  | .array items => "[" ++ Text.joined ", " (shownItems items) ++ "]"
  | .object members => "\x7b" ++ Text.joined ", " (shownMembers members) ++ "\x7d"

/-- The texts of the items of a list in messages. -/
def shownItems : List Json → List Text
  | [] => []
  | j :: rest => shown j :: shownItems rest

/-- The texts of the members of an object in messages. -/
def shownMembers : List (Text × Json) → List Text
  | [] => []
  | m :: rest => shownMember m :: shownMembers rest

/-- The text of a member of an object in messages. -/
def shownMember : Text × Json → Text
  | (name, j) => Text.quoted name ++ ": " ++ shown j

end

/-- The plain text of a value; `null` has none. -/
def plain? : Json → Option Text
  | .scalar .null => none
  | .scalar v => some v.plain
  | other => some other.shown

end Json

end RoadRules
