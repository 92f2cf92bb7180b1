import RoadRules.Condition.Refusal
import RoadRules.Text.Blank
import RoadRules.Text.Digit

set_option autoImplicit false

/-! # Tokens of a condition

A condition on days, months and hours is a sequence of words, times, dashes and commas, with white
space anywhere between them. A time is one or two digits, a colon and two digits, and may go on
with a colon and two more; any other run that begins with a digit is malformed. Nothing else can
stand in a condition. -/

namespace RoadRules.Condition

open Text

/-- A token that names something: a time or a word. -/
inductive Atom where
  | time (text : Text)
  | word (text : Text)
deriving DecidableEq, Repr

def Atom.text : Atom → Text
  | time t => t
  | word t => t

def Atom.isTime : Atom → Bool
  | time _ => true
  | word _ => false

/-- A token of a condition. -/
inductive Token where
  | atom (a : Atom)
  | dash
  | comma
deriving DecidableEq, Repr

def Token.text : Token → Text
  | atom a => a.text
  | dash => "-"
  | comma => ","

def digitPair? : Text → Option Text
  | a :: b :: _ => if isDecimalDigit a && isDecimalDigit b then some [a, b] else none
  | _ => none

/-- One or two digits and a colon at the start of a text. -/
def hourColon? : Text → Option Text
  | a :: .char ':' :: _ => if isDecimalDigit a then some [a, ':'] else none
  | a :: b :: .char ':' :: _ =>
    if isDecimalDigit a && isDecimalDigit b then some [a, b, ':'] else none
  | _ => none

/-- A colon and two digits at the start of a text, or nothing. -/
def colonPair : Text → Text
  | .char ':' :: rest =>
    match digitPair? rest with
    | some pair => ':' :: pair
    | none => []
  | _ => []

def leadingTime? (s : Text) : Option Text := do
  let hour ← hourColon? s
  let minute ← digitPair? (s.drop hour.length)
  let time := hour ++ minute
  return time ++ colonPair (s.drop time.length)

/-- Whether a character may follow a digit in a run of digits. -/
def continuesRun (c : CodePoint) : Bool := isDecimalDigit c || c == ':' || c == 'h' || c == '.'

/-- What stands at the start of a text that begins with a character: a token, or white space, and
the number of characters after the first that belong to it. -/
def lexeme (c : CodePoint) (rest : Text) : Except Refusal (Option Token × Nat) :=
  if isDecimalDigit c then
    match leadingTime? (c :: rest) with
    | some time => .ok (some (.atom (.time time)), time.length - 1)
    | none => .error (.malformedTime (c :: rest.takeWhile continuesRun))
  else if c.isAlpha then
    let tail := rest.takeWhile CodePoint.isAlpha
    .ok (some (.atom (.word (c :: tail))), tail.length)
  else if c == '-' then .ok (some .dash, 0)
  else if c == ',' then .ok (some .comma, 0)
  else if isBlank c then .ok (none, 0)
  else .error (.unexpectedCharacter (c :: rest))

/-- The tokens of a text, without the white space between them. -/
def tokens (s : Text) : Except Refusal (List Token) :=
  match s with
  | [] => .ok []
  | c :: rest => do
    let (token, length) ← lexeme c rest
    let others ← tokens (rest.drop length)
    return token.toList ++ others
termination_by s.length
decreasing_by
  simp only [List.length_drop, List.length_cons]
  omega

end RoadRules.Condition
