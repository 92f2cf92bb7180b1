import RoadRules.Text.Basic

set_option autoImplicit false

/-! # Refused conditions

Every way in which the value of a conditional tag can fail to be a condition. A refusal is a cause
with the part of the text that it is about; its code, its wording and the offending part are
functions of the cause, so that two refusals with the same wording can still be told apart. -/

namespace RoadRules.Condition

/-- The stable codes under which refusals are reported. -/
inductive Code where
  | emptyTagValue | missingAtSign | missingValue | unbalancedParentheses | emptyCondition
  | unknownDay | unknownMonth | invalidTime | invalidNumber | invalidOperator
  | duplicateComparison | unsupportedCondition
deriving DecidableEq, Repr

def Code.text : Code → String
  | emptyTagValue => "EMPTY_TAG_VALUE"
  | missingAtSign => "MISSING_AT_SIGN"
  | missingValue => "MISSING_VALUE"
  | unbalancedParentheses => "UNBALANCED_PARENTHESES"
  | emptyCondition => "EMPTY_CONDITION"
  | unknownDay => "UNKNOWN_DAY"
  | unknownMonth => "UNKNOWN_MONTH"
  | invalidTime => "INVALID_TIME"
  | invalidNumber => "INVALID_NUMBER"
  | invalidOperator => "INVALID_OPERATOR"
  | duplicateComparison => "DUPLICATE_COMPARISON"
  | unsupportedCondition => "UNSUPPORTED_CONDITION"

/-- Why the value of a conditional tag is refused, with the offending part of it. -/
inductive Refusal where
  | emptyValue
  | noAtSign (whole : Text)
  | nothingBeforeAt (whole : Text)
  | notEnclosed (condition : Text)
  | strayParenthesis (condition : Text)
  | emptySegment (inner : Text)
  | unknownDay (word : Text)
  | unknownMonth (word : Text)
  | unknownWord (word : Text)
  | malformedTime (run : Text)
  | timeOutOfRange (time : Text)
  | timeWithoutEnd (time : Text)
  | timeMixedWithWord (range : Text)
  | dayMixedWithMonth (range : Text)
  | rangeWithoutStart (segment : Text)
  | rangeWithoutEnd (segment : Text)
  | nothingListed (segment : Text)
  | unexpectedCharacter (rest : Text)
  | noOperator (segment : Text)
  | unsupportedOperator (operator : Text)
  | invalidNumber (text : Text)
  | unexpectedUnit (axis : Text) (text : Text)
  | duplicateComparison (axis : Text) (segment : Text)
deriving DecidableEq, Repr

namespace Refusal

def code : Refusal → Code
  | emptyValue => .emptyTagValue
  | noAtSign _ => .missingAtSign
  | nothingBeforeAt _ => .missingValue
  | notEnclosed _ | strayParenthesis _ => .unbalancedParentheses
  | emptySegment _ => .emptyCondition
  | unknownDay _ => .unknownDay
  | unknownMonth _ => .unknownMonth
  | malformedTime _ | timeOutOfRange _ => .invalidTime
  | unknownWord _ | timeWithoutEnd _ | timeMixedWithWord _ | dayMixedWithMonth _
  | rangeWithoutStart _ | rangeWithoutEnd _ | nothingListed _ | unexpectedCharacter _ =>
    .unsupportedCondition
  | noOperator _ | unsupportedOperator _ => .invalidOperator
  | invalidNumber _ | unexpectedUnit _ _ => .invalidNumber
  | duplicateComparison _ _ => .duplicateComparison

/-- The wording of a refusal, without the offending part. -/
def reason : Refusal → Text
  | emptyValue => "Empty tag value"
  | noAtSign _ => "Missing '@' separator"
  | nothingBeforeAt _ => "Missing value before '@'"
  | notEnclosed _ => "Condition must be enclosed in parentheses"
  | strayParenthesis _ => "Unbalanced parentheses"
  | emptySegment _ => "Empty condition"
  | unknownDay _ => "Unknown day"
  | unknownMonth _ => "Unknown month"
  | malformedTime _ => "Malformed time"
  | timeOutOfRange _ => "Time out of range"
  | unknownWord _ | nothingListed _ => "Unsupported condition"
  | timeWithoutEnd _ => "Time without a range end"
  | timeMixedWithWord _ => "Time range mixed with day or month"
  | dayMixedWithMonth _ => "Day range mixed with month"
  | rangeWithoutStart _ => "Range without a start"
  | rangeWithoutEnd _ => "Range without an end"
  | unexpectedCharacter _ => "Unexpected character in condition"
  | noOperator _ => "Missing comparison operator"
  | unsupportedOperator _ => "Unsupported comparison operator"
  | invalidNumber _ => "Invalid number"
  | unexpectedUnit axis _ => "Unexpected unit for " ++ axis
  | duplicateComparison axis _ => "Duplicate " ++ axis ++ " condition"

def offending : Refusal → Text
  | emptyValue => []
  | noAtSign t | nothingBeforeAt t | notEnclosed t | strayParenthesis t | emptySegment t
  | unknownDay t | unknownMonth t | unknownWord t | malformedTime t | timeOutOfRange t
  | timeWithoutEnd t | timeMixedWithWord t | dayMixedWithMonth t | rangeWithoutStart t
  | rangeWithoutEnd t | nothingListed t | unexpectedCharacter t | noOperator t
  | unsupportedOperator t | invalidNumber t => t
  | unexpectedUnit _ t | duplicateComparison _ t => t

/-- The whole message: the key of the tag if it has one, the reason, and the offending part in
single quotes if there is one. -/
def message (key : Text) (r : Refusal) : Text :=
  (if key.isEmpty then [] else key ++ ": " : Text) ++ r.reason ++
    (if r.offending.isEmpty then [] else ": '" ++ r.offending ++ "'" : Text)

end Refusal

end RoadRules.Condition
