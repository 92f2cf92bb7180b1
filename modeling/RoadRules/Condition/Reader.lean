import RoadRules.Condition.Bound
import RoadRules.Condition.Item
import RoadRules.Restriction.Basic
import RoadRules.Text.Replace

set_option autoImplicit false

/-! # Reading conditional tags

The value of a conditional tag is a value, an at sign, and conditions in parentheses with
semicolons between them. Each condition either bounds the weight or the height of the vehicle, or
describes windows of time. `Restriction.read` turns a tag into a restriction: the windows of all
conditions in their order, and at most one bound for each axis. -/

namespace RoadRules

open Text Condition

namespace Condition

variable {α : Type}

/-- What one condition says. -/
inductive Clause (α : Type) where
  | bound (axis : Text) (comparison : Comparison α)
  | windows (ws : List TimeWindow)

/-- The axis that a clause is about, if it is a bound. -/
def Clause.axis? : Clause α → Option Text
  | bound axis _ => some axis
  | windows _ => none

def Clause.windowList : Clause α → List TimeWindow
  | bound _ _ => []
  | windows ws => ws

/-- The comparison of a clause if it is a bound on the given axis. -/
def Clause.boundOn? (axis : Text) : Clause α → Option (Comparison α)
  | bound a c => if a = axis then some c else none
  | windows _ => none

/-- The value of a tag and the text inside the parentheses. -/
def splitValue (text : Option Text) : Except Refusal (Text × Text) :=
  let whole := trim (text.getD [])
  if whole.isEmpty then .error .emptyValue
  else
    match splitOnce? '@' (text.getD []) with
    | none => .error (.noAtSign whole)
    | some (before, after) =>
      let value := trim before
      let condition := trim after
      if value.isEmpty then .error (.nothingBeforeAt whole)
      else if !(condition.head? == some (.char '(') && condition.getLast? == some (.char ')')) then
        .error (.notEnclosed condition)
      else
        let inner := (condition.drop 1).dropLast
        if inner.contains '(' || inner.contains ')' then .error (.strayParenthesis condition)
        else .ok (value, inner)

variable [Quantity α]

/-- What a condition without white space around it says. -/
def clause (key segment : Text) : Except Fault (Clause α) := do
  match ← bound? key segment with
  | some (axis, comparison) => return .bound axis comparison
  | none => (windows segment).mapError (.refused key ·) |>.map .windows

/-- What a list of conditions says. `inner` is the whole text between the parentheses, and `seen`
holds the axes that are bounded already. -/
def clauses (key inner : Text) :
    List Text → List Text → Except Fault (List (Clause α))
  | _, [] => .ok []
  | seen, part :: rest =>
    let segment := trim part
    if segment.isEmpty then .error (.refused key (.emptySegment inner))
    else do
      let c : Clause α ← clause key segment
      match c.axis? with
      | none => return c :: (← clauses key inner seen rest)
      | some axis =>
        if axis ∈ seen then .error (.refused key (.duplicateComparison axis segment))
        else return c :: (← clauses key inner (axis :: seen) rest)

/-- The restriction with the given value and clauses. -/
def assemble (key value raw : Text) (cs : List (Clause α)) : Restriction α where
  key := key
  value := value
  windows := cs.flatMap Clause.windowList
  weight := cs.findSome? (Clause.boundOn? weightAxis)
  height := cs.findSome? (Clause.boundOn? heightAxis)
  raw := raw

end Condition

variable {α : Type} [Quantity α]

/-- The restriction that a conditional tag states. -/
def Restriction.read (key : Text) (value : Option Text) : Except Fault (Restriction α) := do
  let (text, inner) ← (splitValue value).mapError (.refused key ·)
  let cs ← clauses key inner [] (splitAt ';' inner)
  return assemble key text (value.getD []) cs

/-- The outcome of checking a conditional tag. -/
structure Verdict where
  isValid : Bool
  message : Text
  /-- The code of the refusal, if the tag is refused. -/
  code : Option Condition.Code
deriving DecidableEq, Repr

/-- Checks a conditional tag. A refusal is an outcome like any other; only a fault that is no
refusal is passed on. -/
def Verdict.ofTag (α : Type) [Quantity α] (key : Text) (value : Option Text) :
    Except Fault Verdict :=
  match (Restriction.read key value : Except Fault (Restriction α)) with
  | .ok r => .ok ⟨true, "Valid: " ++ r.describe, none⟩
  | .error (.refused k cause) => .ok ⟨false, cause.message k, some cause.code⟩
  | .error f => .error f

end RoadRules
