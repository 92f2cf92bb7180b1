import RoadRules.Calendar.TimeOfDay
import RoadRules.Condition.Refusal
import RoadRules.Json.Reader
import RoadRules.Problem
import RoadRules.Text.Quoted

set_option autoImplicit false

/-! # Faults

Everything that an operation of the library can fail with, as causes. `Fault.message` is the one
place where the wording of a fault is fixed. -/

namespace RoadRules

open Calendar Condition

/-- Why an operation fails. -/
inductive Fault where
  | refused (key : Text) (cause : Refusal)
  -- A comparison with a unit is about a dimension that has no unit.
  | unknownAxis (axis : Text)
  | emptyMoment
  | unreadableMoment (shown : Text)
  | beyondCalendar
  | clockRange (field : ClockField)
  | clockSize (value : Int)
  | clockPart (kind : Json.Kind)
  -- A time of day has a value behind its parts.
  | clockZone (kind : Json.Kind)
  | clockLength (count : Nat)
  | noClock (kind : Json.Kind)
  | durationRange (days : Int)
  | durationSize
  | endlessDuration
  | undefinedDuration
  | noDuration (kind : Json.Kind)
  | notAMember (shown : Text) (family : String)
  | unknownWindow (name : Text)
  | notANumber (shown : Text)
  | noNumber (kind : Json.Kind)
  | beyondFloats
  | noMembers (kind : Json.Kind)
  | noElements (kind : Json.Kind)
  -- A value cannot be an element of a set or the key of a tag.
  | noElement (kind : Json.Kind)
  -- A length is divided by a speed factor of zero.
  | zeroDivisor
  -- A function of trigonometry is undefined at a coordinate.
  | outsideDomain
  -- A text of digit-like characters is no whole number.
  | notAnInteger (shown : Text)
  | longInteger (digits : Nat)
  | unknownProfile (identifier : Text) (available : List String)
  | malformedDocument
  | deepDocument (kind : Json.Kind)
  -- A text that has to be encoded has surrogates at a place.
  | unencodable (place : Nat) (surrogates : Text)
  | invalid (problems : List Problem)
deriving DecidableEq, Repr

namespace Fault

/-- The fault of a document whose text cannot be read. -/
def ofFailure : Json.Failure → Fault
  | .malformed => malformedDocument
  | .longInteger digits => longInteger digits
  | .tooDeep kind => deepDocument kind
  | .unencodable place surrogates => unencodable place surrogates

def kindText : Json.Kind → String
  | .null => "NoneType"
  | .bool => "bool"
  | .integer => "int"
  | .real => "float"
  | .text => "str"
  | .array => "list"
  | .object => "dict"

/-- The name of a part of a time of day and its range. -/
def clockText : ClockField → String
  | .hour => "hour must be in 0..23"
  | .minute => "minute must be in 0..59"
  | .second => "second must be in 0..59"
  | .microsecond => "microsecond must be in 0..999999"

/-- Which machine word a part of a time of day does not fit into, and at which end. -/
def clockSizeText (value : Int) : String :=
  if !fitsWord 64 value then "Python int too large to convert to C long"
  else if 0 < value then "signed integer is greater than maximum"
  else "signed integer is less than minimum"

/-- How many parts a time of day may have; six are one too many, seven or more are so in total. -/
def clockLengthText (count : Nat) : String :=
  if count = 6 then "function takes at most 5 positional arguments (6 given)"
  else "function takes at most 6 arguments (" ++ toString count ++ " given)"

/-- Which surrogates of a text cannot be encoded, a single one by its escape. -/
def unencodableText (place : Nat) (surrogates : Text) : Text :=
  match surrogates with
  | [c] => "character '" ++ Text.escape '\'' c ++ "' in position " ++ toString place
  | _ =>
    "characters in position " ++ toString place ++ "-" ++
      toString (place + surrogates.length - 1)

def message : Fault → Text
  | refused key cause => cause.message key
  | unknownAxis axis => Text.quoted axis
  | emptyMoment => "Empty date/time string"
  | unreadableMoment shown => "Unable to parse date/time: " ++ shown
  | beyondCalendar => "date value out of range"
  | clockRange field => clockText field
  | clockSize value => clockSizeText value
  | clockPart kind => "'" ++ kindText kind ++ "' object cannot be interpreted as an integer"
  | clockZone kind =>
    "tzinfo argument must be None or of a tzinfo subclass, not type '" ++ kindText kind ++ "'"
  | clockLength count => clockLengthText count
  | noClock kind => "datetime.time() argument after * must be an iterable, not " ++ kindText kind
  | durationRange days => "days=" ++ toString days ++ "; must have magnitude <= 999999999"
  | durationSize => "Python int too large to convert to C int"
  | endlessDuration => "cannot convert float infinity to integer"
  | undefinedDuration => "cannot convert float NaN to integer"
  | noDuration kind => "unsupported type for timedelta seconds component: " ++ kindText kind
  | notAMember shown family => shown ++ " is not a valid " ++ family
  | unknownWindow name =>
    "Unknown window '" ++ name ++ "'. Available: business_hours, night_hours, weekends"
  | notANumber shown => "could not convert string to float: " ++ shown
  | noNumber kind =>
    "float() argument must be a string or a real number, not '" ++ kindText kind ++ "'"
  | beyondFloats => "int too large to convert to float"
  | noMembers kind => "'" ++ kindText kind ++ "' object has no attribute 'get'"
  | noElements kind => "'" ++ kindText kind ++ "' object is not iterable"
  | noElement kind => "unhashable type: '" ++ kindText kind ++ "'"
  | zeroDivisor => "float division by zero"
  | outsideDomain => "math domain error"
  | notAnInteger shown => "invalid literal for int() with base 10: " ++ shown
  | longInteger digits =>
    "Exceeds the limit (" ++ toString Text.longestNatural ++ " digits) for integer string " ++
      "conversion: value has " ++ toString digits ++
      " digits; use sys.set_int_max_str_digits() to increase the limit"
  | unknownProfile identifier available =>
    "Unknown vehicle profile '" ++ identifier ++ "'. Available: " ++
      String.intercalate ", " available
  | malformedDocument => "malformed document"
  | deepDocument kind =>
    "maximum recursion depth exceeded while decoding a JSON " ++
      (if kind = .array then "array" else "object") ++ " from a unicode string"
  | unencodable place surrogates =>
    "'utf-8' codec can't encode " ++ unencodableText place surrogates ++
      ": surrogates not allowed"
  | invalid _ => "invalid document"

end Fault

end RoadRules
