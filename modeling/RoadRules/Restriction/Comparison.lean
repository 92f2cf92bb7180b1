import RoadRules.Json.Field
import RoadRules.Number.Quantity

set_option autoImplicit false

/-! # Comparisons of dimensions

A comparison limits a rule to vehicles whose weight or height compares with a bound in a given
way, such as `> 7.5`. The measured dimension stands on the left. -/

namespace RoadRules

/-- How a measured dimension compares with a bound. -/
inductive Operator where
  | greater | atLeast | less | atMost
deriving DecidableEq, Repr

namespace Operator

def symbol : Operator → String
  | greater => ">"
  | atLeast => ">="
  | less => "<"
  | atMost => "<="

def all : List Operator := [greater, atLeast, less, atMost]

def ofSymbol? (s : Text) : Option Operator := all.find? fun o => Text.ofString o.symbol == s

theorem ofSymbol?_symbol (o : Operator) : ofSymbol? o.symbol = some o := by
  cases o <;> decide

end Operator

/-- A bound for a dimension. -/
structure Comparison (α : Type) where
  operator : Operator
  bound : α
deriving DecidableEq

namespace Comparison

variable {α : Type} [Quantity α]

/-- Whether a measured dimension compares as it has to. -/
def holds (c : Comparison α) (measured : α) : Bool :=
  match c.operator with
  | .greater => decide (c.bound < measured)
  | .atLeast => decide (c.bound ≤ measured)
  | .less => decide (measured < c.bound)
  | .atMost => decide (measured ≤ c.bound)

/-- A comparison as text: the operator, the bound in six digits, and a unit. -/
def describe (c : Comparison α) (unit : Text) : Text :=
  c.operator.symbol ++ " " ++ Quantity.text 6 c.bound ++ unit

/-- A comparison from the members of an object; the bound must not be negative. -/
def ofMembers (members : List (Text × Json)) : Checked (Comparison α) :=
  let bound (j : Json) : Checked α :=
    (Quantity.ofJson j).require .greaterThanEqual fun v => decide (Quantity.zero ≤ v)
  ((Json.required members "operator" (Json.nameField .enum Operator.ofSymbol?)).both
    (Json.required members "value" bound)).map fun p => ⟨p.1, p.2⟩

def ofJson : Json → Checked (Comparison α)
  | .object members => ofMembers members
  | _ => .fail .modelType

end Comparison

end RoadRules
