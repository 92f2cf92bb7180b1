import RoadRules.Calendar.Month
import RoadRules.Calendar.Weekday
import RoadRules.Text.Blank
import RoadRules.Text.Replace
import RoadRules.Text.WordChar

set_option autoImplicit false

/-! # Suggested corrections

A correction for the value of a conditional tag, where one of the common mistakes is found. The
mistakes are looked for in a fixed order, and only the first one that occurs is mended: a
misspelling from a short list, a day or month in the wrong case, brackets of the wrong kind,
missing parentheses, doubled spaces. -/

namespace RoadRules

open Text Calendar

namespace Suggestion

/-- Misspellings with their corrections, in the order in which they are tried. -/
def misspellings : List (Text × Text) :=
  [("Mon-Fri", "Mo-Fr"), ("monday-friday", "Mo-Fr"), ("Sat-Sun", "Sa-Su"),
    ("maxweight", "weight")]

def names : List Text :=
  Weekday.week.map (Text.ofString ·.abbreviation) ++ Month.year.map (Text.ofString ·.abbreviation)

/-- A word in the case in which the name of a day or month is written, if it is one in any case;
other words stay. -/
def recaseWord (word : Text) : Text :=
  if word.all CodePoint.isAlpha then
    match names.find? fun name => name.map CodePoint.toLower == word.map CodePoint.toLower with
    | some name => name
    | none => word
  else word

/-- A text with the names of days and months in their right case; `word` is the word that is
being read, in reverse order. -/
def recaseFrom (word : Text) : Text → Text
  | [] => recaseWord word.reverse
  | c :: rest =>
    if isWordChar c then recaseFrom (c :: word) rest
    else recaseWord word.reverse ++ c :: recaseFrom [] rest

/-- A text with the names of days and months in their right case. -/
def recase (s : Text) : Text := recaseFrom [] s

/-- A bracket or brace as a parenthesis; other characters stay. -/
def parenthesis (c : CodePoint) : CodePoint :=
  if c == '[' || c == '\x7b' then '(' else if c == ']' || c == '\x7d' then ')' else c

/-- A text with every stretch of white space as one space; `blank` tells whether the character
before is white space. -/
def squeezeFrom (blank : Bool) : Text → Text
  | [] => []
  | c :: rest =>
    if isBlank c then (if blank then "" else " ") ++ squeezeFrom true rest
    else c :: squeezeFrom false rest

/-- Whether two spaces stand next to each other. -/
def hasDoubledSpace (s : Text) : Bool := occursIn "  " s

def spelling? (s : Text) : Option (Text) :=
  (misspellings.find? fun m => occursIn m.1 s).map fun m => replaceAll m.1 m.2 s

def case? (s : Text) : Option (Text) :=
  if recase s != s then some (recase s) else none

def brackets? (s : Text) : Option (Text) :=
  if s.contains '[' || s.contains '\x7b' then some (s.map parenthesis) else none

def parentheses? (s : Text) : Option (Text) :=
  match splitOnce? '@' s with
  | some (value, condition) =>
    if s.contains '(' then none
    else some (trim value ++ " @ (" ++ trim condition ++ ")")
  | none => none

def spaces? (s : Text) : Option (Text) :=
  if hasDoubledSpace s then some (trim (squeezeFrom false s)) else none

/-- The correction of the first common mistake in a text. -/
def ofText? (s : Text) : Option (Text) :=
  spelling? s <|> case? s <|> brackets? s <|> parentheses? s <|> spaces? s

end Suggestion

/-- The correction of the first common mistake in the value of a conditional tag. -/
def suggest? (value : Text) : Option Text := Suggestion.ofText? value

end RoadRules
