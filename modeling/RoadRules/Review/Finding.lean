import RoadRules.Condition.Reader
import RoadRules.OrderedMap
import RoadRules.Review.Suggestion
import RoadRules.Window.Overlap

set_option autoImplicit false

/-! # Findings about the tags of a way

What deserves attention in the conditional tags of a way: values that are refused, values that
are unusual or wrong for their subject, windows that overlap, and tags that also come without a
condition. A finding is a cause; its code, severity, wording and suggestion are functions of it.
Findings come in the order of the tags, and those about conflicting tags come last. -/

namespace RoadRules

open Text Condition

/-- The stable codes under which findings are reported. -/
inductive FindingCode where
  | invalidSyntax | malformedCondition | inconsistentValue | deprecatedSyntax | unusualValue
  | overlappingConditions
deriving DecidableEq, Repr

def FindingCode.number : FindingCode → Nat
  | invalidSyntax => 4001
  | malformedCondition => 4002
  | inconsistentValue => 4003
  | deprecatedSyntax => 4004
  | unusualValue => 4005
  | overlappingConditions => 4006

/-- How grave a finding is. -/
inductive Severity where
  | error | warning
deriving DecidableEq, Repr

def Severity.name : Severity → String
  | error => "error"
  | warning => "warning"

/-- What a finding is about. -/
inductive Cause where
  | refused (refusal : Refusal) (value : Text)
  | unusualAccess (value : Text)
  | invalidOneway (value : Text)
  | implausibleSpeed (value : Text)
  | milesPerHour (value : Text)
  | overlap (first second : TimeWindow)
  | conflict (base : Text) (value : Option Text) (keys : List Text)
deriving DecidableEq

/-- A finding about one tag. -/
structure Finding where
  key : Text
  cause : Cause
deriving DecidableEq

def usualAccessValues : List Text :=
  ["yes", "no", "private", "permissive", "destination", "customers", "delivery", "agricultural",
    "forestry", "emergency"]

def onewayValues : List Text := ["yes", "no", "-1", "1", "true", "false"]

/-- The subjects whose values are access values. -/
def reviewedSubjects : List Text :=
  ["access", "motor_vehicle", "vehicle", "bicycle", "foot", "horse", "hgv", "bus", "taxi",
    "emergency", "delivery"]

/-- The highest speed limit, in kilometres per hour, that raises no question. -/
def plausibleSpeed : Nat := 200

/-- The code under which a refusal is reported: the old form without an at sign has its own, and
faults of the frame are told apart from those of a condition. -/
def syntaxCode (r : Refusal) : FindingCode :=
  match r.code with
  | .missingAtSign => .deprecatedSyntax
  | .emptyTagValue | .missingValue | .unbalancedParentheses | .emptyCondition => .invalidSyntax
  | _ => .malformedCondition

namespace Finding

def code (f : Finding) : FindingCode :=
  match f.cause with
  | .refused r _ => syntaxCode r
  | .invalidOneway _ => .inconsistentValue
  | .overlap _ _ => .overlappingConditions
  | _ => .unusualValue

def severity (f : Finding) : Severity :=
  match f.cause with
  | .refused _ _ | .invalidOneway _ => .error
  | _ => .warning

def refusedText (key : Text) (r : Refusal) : Text :=
  (match syntaxCode r with
    | .deprecatedSyntax => key ++ " uses deprecated syntax; " ++
        "conditional restrictions use the format: value @ (condition)"
    | .invalidSyntax => "Invalid syntax in " ++ key ++ ": " ++ r.reason
    | _ => "Malformed condition in " ++ key ++ ": " ++ r.reason) ++
  (if r.offending.isEmpty then [] else " ('" ++ r.offending ++ "')" : Text)

def message (f : Finding) : Text :=
  match f.cause with
  | .refused r _ => refusedText f.key r
  | .unusualAccess value =>
    "Unusual access value '" ++ value ++ "' in " ++ f.key ++ ". Common values are: " ++
      Text.joined ", " usualAccessValues
  | .invalidOneway value =>
    "Invalid oneway value '" ++ value ++ "' in " ++ f.key ++ ". Valid values are: " ++
      Text.joined ", " onewayValues
  | .implausibleSpeed value =>
    "Speed limit of " ++ value ++ " km/h in " ++ f.key ++ " seems unusually high"
  | .milesPerHour value =>
    "Speed value '" ++ value ++ "' in " ++ f.key ++ " uses mph; OSM usually uses km/h"
  | .overlap first second =>
    f.key ++ " has overlapping time conditions: " ++ first.describe ++ " and " ++ second.describe
  | .conflict base value keys =>
    "Way has both " ++ base ++ "=" ++ value.getD "None" ++ " and conditional tags " ++
      Text.joined ", " keys ++ "; verify this combination is intended"

def suggestion (f : Finding) : Option Text :=
  match f.cause with
  | .refused _ value => suggest? value
  | _ => none

end Finding

namespace Review

/-- Whether a text is digits, white space and the unit miles per hour in any case. -/
def statesMiles (s : Text) : Bool :=
  let digits := s.takeWhile isDecimalDigit
  !digits.isEmpty &&
    (trimStart (s.drop digits.length)).map CodePoint.toLower == "mph"

/-- The number of characters of a text that a message about it shows. -/
def shownLength : Nat := 200

/-- Whether a speed limit is a whole number higher than roads have. Too many digits are a fault,
and so are digit-like characters that form no numeral. -/
def exceedsPlausible (value : Text) : Except Fault Bool :=
  let digits := (value.takeWhile isDecimalDigit).length
  if value.isEmpty || !value.all isDigitLike then .ok false
  else if longestNatural < digits then .error (.longInteger digits)
  else
    match natural? value with
    | some n => .ok (decide (plausibleSpeed < n))
    | none => .error (.notAnInteger ((quoted value).take shownLength))

/-- The causes of findings about a value of a subject. -/
def valueCauses (subject value : Text) : Except Fault (List Cause) := do
  let word := lower value
  let access :=
    if reviewedSubjects.contains subject && !usualAccessValues.contains word then
      [Cause.unusualAccess value] else []
  let oneway :=
    if subject == "oneway" && !onewayValues.contains word then [Cause.invalidOneway value] else []
  if subject == "maxspeed" then
    let high ← exceedsPlausible value
    return access ++ oneway ++ (if high then [.implausibleSpeed value] else []) ++
      (if statesMiles value then [.milesPerHour value] else [])
  else return access ++ oneway

/-- The causes of findings about windows: at most one, for the first two that overlap. -/
def overlapCauses (ws : List TimeWindow) : List Cause :=
  ((firstOverlap ws).map fun p => Cause.overlap p.1 p.2).toList

variable {α : Type} [Quantity α]

/-- The causes of findings about a restriction. -/
def restrictionCauses (r : Restriction α) : Except Fault (List Cause) := do
  let causes ← valueCauses (lower r.subject) (trim r.value)
  return causes ++ overlapCauses r.windows

end Review

/-- The causes of findings about the value of a conditional tag; an empty value has none. -/
def tagCauses (α : Type) [Quantity α] (key : Text) (value : Option Text) :
    Except Fault (List Cause) :=
  match value with
  | none => .ok []
  | some v =>
    if allBlank v then .ok []
    else
      match (Restriction.read key (some v) : Except Fault (Restriction α)) with
      | .ok r => Review.restrictionCauses r
      | .error (.refused _ refusal) => .ok [.refused refusal v]
      | .error f => .error f

/-- The findings about the conditional tags of a way, in the order of the tags. -/
def tagFindings (α : Type) [Quantity α] : List (Text × Option Text) →
    Except Fault (List Finding)
  | [] => .ok []
  | e :: rest => do
    let causes ← if isConditionalKey e.1 then tagCauses α e.1 e.2 else .ok []
    let others ← tagFindings α rest
    return causes.map (Finding.mk e.1) ++ others

/-- The keys of the conditional tags, grouped by the key that they qualify. -/
def conditionalGroups (tags : OrderedMap Text (Option Text)) :
    OrderedMap Text (List Text) :=
  (tags.keys.filter isConditionalKey).foldl
    (fun groups key => groups.alter (baseKey key) fun keys => keys.getD [] ++ [key]) .empty

/-- The findings about conditional tags that also come without a condition. -/
def conflictFindings (tags : OrderedMap Text (Option Text)) : List Finding :=
  (conditionalGroups tags).entries.filterMap fun group =>
    (tags.get? group.1).map fun value =>
      ⟨group.2.headD [], .conflict group.1 value group.2⟩

def findings (α : Type) [Quantity α] (tags : OrderedMap Text (Option Text)) :
    Except Fault (List Finding) := do
  let own ← tagFindings α tags.entries
  return own ++ conflictFindings tags

end RoadRules
