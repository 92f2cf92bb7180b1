import RoadRules.Calendar.Moment
import RoadRules.Fault
import RoadRules.Json
import RoadRules.Text.Blank

set_option autoImplicit false

/-! # Reading moments

A moment is read in the international format first: a calendar date or a week date, with or
without dashes, any one character, and a time of day, with or without colons, which may end with
an offset from universal time. Five forms that people write follow, in a fixed order; the first
form that the whole text has, with a date of the calendar, decides. Month and day of two forms
with slashes can both fit, and then the day is the first of the two.

The international format is read leniently in three places. A fraction may follow hours, minutes
or seconds and always counts as a fraction of a second, of which six digits are kept. Without
colons the fraction may follow the seconds without a point. And where an offset follows, one
ASCII character, or anything after six digits of a fraction, may stand before it. A null
character that stands in one of these places, or behind the letter `Z`, ends the text. A surrogate
can be no part of the format, but the first one at a place where the separator between date and
time may stand counts as the letter `T`. -/

namespace RoadRules.Calendar

open Text

namespace Moment

/-! ## The international format -/

/-- The number that exactly `n` ASCII digits at the start of a text write, and the rest. -/
def asciiDigits? (n : Nat) (s : Text) : Option (Nat × Text) :=
  let digits := s.take n
  if digits.length = n ∧ digits.all CodePoint.isDigit then
    some (digitsValue (digits.map fun c => c.code - 48), s.drop n)
  else none

/-- The text after a character that has to stand at its start. -/
def expect? (c : CodePoint) : Text → Option (Text)
  | d :: rest => if d == c then some rest else none
  | [] => none

/-- The date of a numbered week: two digits for the week, and a digit for the day, Monday if
there is none. -/
def weekDate? (year : Nat) (dashes : Bool) (s : Text) : Option Date := do
  let (week, rest) ← asciiDigits? 2 s
  if rest.isEmpty then Date.ofWeek? year week 1
  else
    let rest ← if dashes then expect? '-' rest else some rest
    let (day, rest) ← asciiDigits? 1 rest
    if rest.isEmpty then Date.ofWeek? year week day else none

/-- The date of a month: two digits each for the month and the day. -/
def monthDate? (year : Nat) (dashes : Bool) (s : Text) : Option Date := do
  let (month, rest) ← asciiDigits? 2 s
  let rest ← if dashes then expect? '-' rest else some rest
  let (day, rest) ← asciiDigits? 2 rest
  let month ← Month.ofNumber? month
  if rest.isEmpty then some ⟨year, month, day⟩ else none

/-- A date in the international format, with dashes throughout or with none. -/
def isoDate? (s : Text) : Option Date := do
  let (year, rest) ← asciiDigits? 4 s
  let (dashes, rest) := match rest with
    | .char '-' :: rest => (true, rest)
    | rest => (false, rest)
  match rest with
  | .char 'W' :: rest => weekDate? year dashes rest
  | rest => monthDate? year dashes rest

/-- Whether a text has an ASCII digit at a place. -/
def digitAt (s : Text) (i : Nat) : Bool := (s[i]?.map CodePoint.isDigit).getD false

/-- The length of the date at the start of a text. Seven characters are a date alone. A week date
without dashes has seven or eight characters before the separator; the digits that follow it come
in pairs, so their number tells which. A week date with dashes has eight if a digit follows the
next two characters, and else ten if a dash follows the week. -/
def dateLength (s : Text) : Option Nat :=
  if s.length < 7 then none
  else if s.length = 7 then some 7
  else if s[4]? == some (.char '-') then
    if s[5]? == some (.char 'W') then
      if s[8]? == some (.char '-') then
        if s.length = 9 then none else if digitAt s 10 then some 8 else some 10
      else some 8
    else some 10
  else if s[4]? == some (.char 'W') then
    let stop := 7 + ((s.drop 7).takeWhile CodePoint.isDigit).length
    if stop < 9 then some stop else if stop % 2 = 0 then some 7 else some 8
  else some 8

/-- A time of day as it is read: the parts, and whether something was passed over at the end. -/
structure ClockReading where
  hour : Nat
  minute : Nat
  second : Nat
  micro : Nat
  /-- Whether something stands behind the time that is no part of it. -/
  leftover : Bool
deriving DecidableEq, Repr

/-- Whether a text has not ended: it is not empty, and no null character ends it. -/
def goesOn : Text → Bool
  | [] => false
  | c :: _ => c != '\x00'

/-- The microseconds that the digits of a fraction write, and whether something follows them. At
most six digits are read and further digits are passed over. -/
def fraction? (s : Text) : Option (Nat × Bool) := do
  let count := min s.length 6
  let (value, rest) ← asciiDigits? count s
  some (value * powerOfTen (6 - count), goesOn (rest.dropWhile CodePoint.isDigit))

/-- The pairs of digits of a time of day after `parts`, most recent first, and its fraction.
`colons` tells whether colons separate the pairs; the first pair decides. `left` counts the pairs
that may still come. -/
def clockPairs? (colons : Option Bool) (parts : List Nat) :
    Nat → Text → Option (List Nat × Nat × Bool)
  | 0, s => (fraction? s).map fun f => (parts, f.1, f.2)
  | left + 1, s => do
    let (value, rest) ← asciiDigits? 2 s
    let parts := value :: parts
    match rest with
    | [] => some (parts, 0, false)
    | [c] => if c.code < 128 then some (parts, 0, goesOn [c]) else none
    | c :: after =>
      let separated := colons.getD (c == ':')
      if separated && c == ':' then clockPairs? (some separated) parts left after
      else if c == '.' || c == ',' then (fraction? after).map fun f => (parts, f.1, f.2)
      else if separated then none
      else clockPairs? (some separated) parts left rest

/-- A time of day, its later parts zero where they are missing. -/
def clock? (s : Text) : Option ClockReading :=
  (clockPairs? none [] 3 s).map fun (parts, micro, leftover) =>
    let parts := parts.reverse
    ⟨parts.getD 0 0, parts.getD 1 0, parts.getD 2 0, micro, leftover⟩

/-- An offset from universal time in microseconds: less than a day, and nothing behind it. An
offset of no whole second is none at all. -/
def offset? (negative : Bool) (s : Text) : Option Int := do
  let c ← clock? s
  if c.leftover then none
  else
    let seconds := (c.hour * 60 + c.minute) * 60 + c.second
    let micros : Nat := if seconds = 0 then 0 else seconds * 1000000 + c.micro
    if micros < microsPerDay then some (if negative then -(micros : Int) else micros) else none

/-- Whether a character begins an offset from universal time. -/
def beginsOffset (c : CodePoint) : Bool := c == '+' || c == '-' || c == 'Z'

/-- A time of day with its offset from universal time. -/
def isoTime? (s : Text) : Option (TimeOfDay × Option Int) := do
  let reading ← clock? (s.takeWhile fun c => !beginsOffset c)
  let time ← TimeOfDay.ofParts? reading.hour reading.minute reading.second reading.micro
  match s.dropWhile fun c => !beginsOffset c with
  | [] => if reading.leftover then none else some (time, none)
  | .char 'Z' :: rest => if goesOn rest then none else some (time, some 0)
  | sign :: rest => (offset? (sign == '-') rest).map fun o => (time, some o)

/-- The places where the character between date and time of day can stand. -/
def separatorPlaces : List Nat := [7, 8, 10]

/-- A text with the letter `T` for the first surrogate at a place of the separator. -/
def withoutSurrogate (s : Text) : Text :=
  match separatorPlaces.find? fun i => (s[i]?.map CodePoint.isSurrogate).getD false with
  | some i => s.set i 'T'
  | none => s

/-- A moment in the international format, without surrogates. -/
def ofCharacters? (s : Text) : Option Moment := do
  let n ← dateLength s
  let date ← isoDate? (s.take n)
  match s.drop n with
  | [] => (LocalTime.ofDate? date .midnight).map fun w => ⟨w, none⟩
  | _ :: rest =>
    let (time, offset) ← isoTime? rest
    (LocalTime.ofDate? date time).map fun w => ⟨w, offset⟩

def ofIso? (s : Text) : Option Moment :=
  let s := withoutSurrogate s
  if s.hasSurrogate then none else ofCharacters? s

/-! ## Written forms -/

/-- A part of a written form. -/
inductive FormPart where
  /-- Four digits of the year. -/
  | year
  /-- The number of the month. -/
  | month
  | day
  | hour
  | minute
  | second
  | mark (c : Char)
  | blank
deriving DecidableEq, Repr

/-- The forms that people write, in the order in which they are tried. -/
def forms : List (List FormPart) :=
  [[.year, .mark '-', .month, .mark '-', .day, .blank, .hour, .mark ':', .minute],
    [.year, .mark '-', .month, .mark '-', .day, .blank, .hour, .mark ':', .minute, .mark ':',
      .second],
    [.day, .mark '.', .month, .mark '.', .year, .blank, .hour, .mark ':', .minute],
    [.day, .mark '/', .month, .mark '/', .year, .blank, .hour, .mark ':', .minute],
    [.month, .mark '/', .day, .mark '/', .year, .blank, .hour, .mark ':', .minute]]

/-- The number in a field of one or two digits, up to a largest value. The first of two digits is
an ASCII digit, and so is every digit of an `ascii` field. -/
def upTo? (ascii : Bool) (largest : Nat) (field : Text) : Option Nat :=
  match field with
  | [a] => if ascii && !a.isDigit then none else digitValue? a
  | [a, b] =>
    if !a.isDigit || (ascii && !b.isDigit) then none
    else (natural? [a, b]).bind fun n => if n ≤ largest then some n else none
  | _ => none

/-- The number in a field of a month: one to twelve, in ASCII digits. -/
def monthField? (field : Text) : Option Nat :=
  (upTo? true 12 field).bind fun n => if n = 0 then none else some n

/-- The number in a field of a day: one to thirty-one. A single digit may have a space in front
and is an ASCII digit; so are the digits up to nine with a zero in front and the thirties. -/
def dayField? (field : Text) : Option Nat :=
  match field with
  | [.char ' ', d] => (upTo? true 9 [d]).bind fun n => if n = 0 then none else some n
  | [a, _] =>
    (upTo? (a != '1' && a != '2') 31 field).bind fun n => if n = 0 then none else some n
  | _ => (upTo? true 9 field).bind fun n => if n = 0 then none else some n

/-- The number in a field of an hour: zero to twenty-three. The digit after a two is an ASCII
digit. -/
def hourField? (field : Text) : Option Nat :=
  upTo? (field.length == 2 && field.head? == some (.char '2')) 23 field

/-- The number in a field of a year: four digits. -/
def yearField? (field : Text) : Option Nat :=
  if field.length = 4 then natural? field else none

/-- What has been read of a written form. -/
structure FormReading where
  year : Nat
  /-- The number of the month. -/
  month : Nat
  day : Nat
  hour : Nat
  minute : Nat
  second : Nat
deriving DecidableEq, Repr

/-- The reading with the number of a field added; `none` if the field is not as it has to be. -/
def FormReading.add? (r : FormReading) (part : FormPart) (field : Text) :
    Option FormReading :=
  match part with
  | .year => (yearField? field).map fun n => ⟨n, r.month, r.day, r.hour, r.minute, r.second⟩
  | .month => (monthField? field).map fun n => ⟨r.year, n, r.day, r.hour, r.minute, r.second⟩
  | .day => (dayField? field).map fun n => ⟨r.year, r.month, n, r.hour, r.minute, r.second⟩
  | .hour => (hourField? field).map fun n => ⟨r.year, r.month, r.day, n, r.minute, r.second⟩
  | .minute => (upTo? false 59 field).map fun n => ⟨r.year, r.month, r.day, r.hour, n, r.second⟩
  | .second => (upTo? false 59 field).map fun n => ⟨r.year, r.month, r.day, r.hour, r.minute, n⟩
  | .mark _ | .blank => none

/-- Whether a part ends the field in front of it. A space in front of a single digit belongs to
the field of a day. -/
def endsField (next : FormPart) (field : Text) (c : CodePoint) : Bool :=
  match next with
  | .mark d => c == d
  | .blank => isBlank c && !field.isEmpty
  | _ => false

/-- The field at the start of a text, up to the part that follows it. -/
def takeField (next : FormPart) (field : Text) : Text → Text × Text
  | [] => (field.reverse, [])
  | c :: rest =>
    if endsField next field c then (field.reverse, c :: rest)
    else takeField next (c :: field) rest

/-- The reading of a text as a list of parts, which has to use up the whole text. -/
def readForm? (r : FormReading) : List FormPart → Text → Option FormReading
  | [], s => if s.isEmpty then some r else none
  | .mark c :: parts, s => (expect? c s).bind (readForm? r parts)
  | .blank :: parts, s =>
    if (s.head?.map isBlank).getD false then readForm? r parts (trimStart s) else none
  | [part], s => (r.add? part s).bind fun r => some r
  | part :: next :: parts, s =>
    let (field, rest) := takeField next [] s
    (r.add? part field).bind fun r => readForm? r (next :: parts) rest

/-- The moment that a text denotes in one of the written forms. -/
def ofForm? (s : Text) (form : List FormPart) : Option Moment := do
  let r ← readForm? ⟨0, 0, 0, 0, 0, 0⟩ form s
  let month ← Month.ofNumber? r.month
  let time ← TimeOfDay.ofParts? r.hour r.minute r.second 0
  (LocalTime.ofDate? ⟨r.year, month, r.day⟩ time).map fun w => ⟨w, none⟩

/-! ## All forms -/

/-- The moment that a text without white space around it denotes. -/
def ofText? (s : Text) : Option Moment :=
  match ofIso? s with
  | some m => some m
  | none => forms.findSome? (ofForm? s)

/-- The moment that a scalar denotes by its text. -/
def read (v : Scalar) : Except Fault Moment :=
  let text := trim v.plain
  if v = .null ∨ text.isEmpty then .error .emptyMoment
  else
    match ofText? text with
    | some m => .ok m
    | none => .error (.unreadableMoment v.shown)

end Moment

end RoadRules.Calendar
