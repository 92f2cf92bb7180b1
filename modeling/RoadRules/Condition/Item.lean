import RoadRules.Condition.Token
import RoadRules.Text.Replace
import RoadRules.Window.Basic

set_option autoImplicit false

/-! # Items of a condition

The tokens of a condition form items: a single day or month, or a range of days, months or times
with a dash in the middle. Commas separate items and say nothing themselves. What the items name
is collected: the days, the months, and the daily ranges of hours in their order; every range of
hours makes a window of its own, with all the days and all the months. -/

namespace RoadRules.Condition

open Text Calendar

/-- An item of a condition. -/
inductive Item where
  | single (a : Atom)
  | range (a b : Atom)
deriving DecidableEq, Repr

/-- The items that a list of tokens forms; `segment` is the text of the condition. -/
def items (segment : Text) : List Token → Except Refusal (List Item)
  | [] => .ok []
  | .comma :: rest => items segment rest
  | .dash :: _ => .error (.rangeWithoutStart segment)
  | .atom a :: .dash :: .atom b :: rest => (items segment rest).map (.range a b :: ·)
  | .atom _ :: .dash :: _ => .error (.rangeWithoutEnd segment)
  | .atom a :: rest => (items segment rest).map (.single a :: ·)

/-! ## Words -/

def weekday? (word : Text) : Option Weekday := NamedCycle.ofName? word

def month? (word : Text) : Option Month := NamedCycle.ofName? word

/-- The first three letters of the English weekdays. -/
def dayBeginnings : List Text := ["mon", "tue", "wed", "thu", "fri", "sat", "sun"]

/-- The first three letters of the English months. -/
def monthBeginnings : List Text :=
  Month.year.map fun m => (Text.ofString m.abbreviation).map CodePoint.toLower

/-- Why a word that names neither a day nor a month is refused: by its length and its first three
letters it may look like a day or like a month. -/
def unknown (word : Text) : Refusal :=
  let beginning := (word.map CodePoint.toLower).take 3
  if word.length = 2 ∨ beginning ∈ dayBeginnings then .unknownDay word
  else if word.length = 3 ∨ beginning ∈ monthBeginnings then .unknownMonth word
  else .unknownWord word

/-! ## Times -/

def timeParts (text : Text) : List Nat :=
  (splitAt ':' text).map fun part => (natural? part).getD 0

/-- The time of day that a written time denotes. The seconds are read and dropped; the end of a
range may be 24:00, which is midnight. -/
def timeOfDay (endsRange : Bool) (text : Text) : Except Refusal TimeOfDay :=
  let parts := timeParts text
  let hour := parts.getD 0 0
  let minute := parts.getD 1 0
  let second := parts.getD 2 0
  if endsRange ∧ hour = 24 ∧ minute = 0 ∧ second = 0 then .ok .midnight
  else if 23 < hour ∨ 59 < minute ∨ 59 < second then .error (.timeOutOfRange text)
  else .ok (.ofMicros ((hour * 60 + minute) * microsPerMinute))

/-! ## Meanings -/

/-- What an item names. -/
inductive Piece where
  | days (s : Selection Weekday)
  | months (s : Selection Month)
  | hours (h : Hours)

def dashed (a b : Text) : Text := a ++ "-" ++ b

def wordPiece (word : Text) : Except Refusal Piece :=
  match weekday? word, month? word with
  | some d, _ => .ok (.days (.ofList [d]))
  | none, some m => .ok (.months (.ofList [m]))
  | none, none => .error (unknown word)

/-- What a range between two words names: both have to be days, or both months. If only one of
them is known, it decides what the other should have been. -/
def wordRangePiece (a b : Text) : Except Refusal Piece :=
  match weekday? a, month? a, weekday? b, month? b with
  | some d, _, some e, _ => .ok (.days (.range d e))
  | none, some m, none, some n => .ok (.months (.range m n))
  | some _, _, none, some _ => .error (.dayMixedWithMonth (dashed a b))
  | none, some _, some _, _ => .error (.dayMixedWithMonth (dashed a b))
  | some _, _, none, none => .error (.unknownDay b)
  | none, none, some _, _ => .error (.unknownDay a)
  | none, some _, none, none => .error (.unknownMonth b)
  | none, none, none, some _ => .error (.unknownMonth a)
  | none, none, none, none => .error (unknown a)

def Item.piece : Item → Except Refusal Piece
  | .single (.time t) => .error (.timeWithoutEnd t)
  | .single (.word w) => wordPiece w
  | .range (.time a) (.time b) => do
    let start ← timeOfDay false a
    let stop ← timeOfDay true b
    return .hours ⟨start, stop⟩
  | .range (.word a) (.word b) => wordRangePiece a b
  | .range a b => .error (.timeMixedWithWord (dashed a.text b.text))

def daysOf (ps : List Piece) : Selection Weekday :=
  ps.foldl (fun s p => match p with | .days d => s.union d | _ => s) .empty

def monthsOf (ps : List Piece) : Selection Month :=
  ps.foldl (fun s p => match p with | .months m => s.union m | _ => s) .empty

/-- The daily ranges of hours in a list of pieces. -/
def hoursOf (ps : List Piece) : List Hours :=
  ps.filterMap fun p => match p with | .hours h => some h | _ => none

/-- The windows that a list of pieces describes: one for each daily range of hours, or one for
the whole day when there is none. -/
def windowsOf (ps : List Piece) : List TimeWindow :=
  if (hoursOf ps).isEmpty then [⟨daysOf ps, monthsOf ps, none⟩]
  else (hoursOf ps).map fun h => ⟨daysOf ps, monthsOf ps, some h⟩

/-- The windows that a condition on days, months and hours describes. -/
def windows (segment : Text) : Except Refusal (List TimeWindow) := do
  let ts ← tokens segment
  let its ← items segment ts
  if its.isEmpty then .error (.nothingListed segment)
  else return windowsOf (← its.mapM Item.piece)

end RoadRules.Condition
