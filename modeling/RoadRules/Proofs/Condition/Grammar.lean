import RoadRules.Condition.Reader
import RoadRules.Proofs.Calendar.Cycle
import RoadRules.Proofs.Condition.Tokens

set_option autoImplicit false

/-! # The grammar of conditional tags

What a conditional tag may look like, as trees that know their text and their meaning. A tree holds
everything that a writer is free to choose, so also the white space and the digits; what the
grammar forbids cannot be built. The meaning is read off the tree and not off the text: days and
months are counted in steps around their cycle, and a time is counted in minutes. -/

namespace RoadRules.Condition

open Text Calendar

/-! ## White space and numbers -/

/-- White space on one line. -/
structure Gap where
  text : Text
  blank : ∀ c ∈ text, isBlank c = true
  -- It is on one line.
  oneLine : .char '\n' ∉ text

def Gap.none : Gap := ⟨[], by simp, by simp⟩

/-- One or more decimal digits. -/
structure Digits where
  text : Text
  ne_nil : text ≠ []
  digits : ∀ c ∈ text, isDecimalDigit c = true

/-- A number below sixty in two digits. -/
structure Sixtieth where
  text : Text
  value : Nat
  isPair : IsPair text
  reads : natural? text = some value
  value_lt : value < 60

/-! ## Times -/

/-- A time as it can be written, with or without seconds. -/
structure Clock where
  hourText : Text
  hour : Nat
  isHour : IsHour hourText
  reads : natural? hourText = some hour
  minute : Sixtieth
  -- The second, which says nothing.
  second : Option Sixtieth

namespace Clock

def secondText (c : Clock) : Text :=
  match c.second with
  | none => []
  | some s => .char ':' :: s.text

def text (c : Clock) : Text :=
  c.hourText ++ .char ':' :: (c.minute.text ++ c.secondText)

/-- The time of day that is reached after the hours and minutes. -/
def time (c : Clock) : TimeOfDay := .ofMicros ((c.hour * 60 + c.minute.value) * microsPerMinute)

def IsOfDay (c : Clock) : Prop := c.hour < 24

def IsEndOfDay (c : Clock) : Prop :=
  c.hour = 24 ∧ c.minute.value = 0 ∧ ∀ s, c.second = some s → s.value = 0

theorem time_endOfDay (c : Clock) (h : c.IsEndOfDay) : c.time = .midnight := by
  unfold time
  rw [h.1, h.2.1]
  rfl

end Clock

/-- A daily range of hours as it can be written. It may end at the end of the day. -/
structure ClockRange where
  start : Clock
  start_ofDay : start.IsOfDay
  before : Gap
  after : Gap
  stop : Clock
  -- It is a time of the day or its end.
  stop_ofDay : stop.IsOfDay ∨ stop.IsEndOfDay

namespace ClockRange

def text (r : ClockRange) : Text :=
  r.start.text ++ (r.before.text ++ .char '-' :: (r.after.text ++ r.stop.text))

def hours (r : ClockRange) : Hours := ⟨r.start.time, r.stop.time⟩

end ClockRange

/-! ## Days and months -/

/-- A member of a cycle, or a range of its members. -/
inductive Span (ι : Type) where
  | one (a : ι)
  -- The members from one to another.
  | range (a : ι) (before after : Gap) (b : ι)

namespace Span

variable {ι : Type} [NamedCycle ι]

def text : Span ι → Text
  | one a => NamedCycle.name a
  | range a before after b =>
    Text.ofString (NamedCycle.name a) ++
      (before.text ++ .char '-' :: (after.text ++ Text.ofString (NamedCycle.name b)))

/-- Whether a member belongs to a span: one that is reached from the start no later than the
end. -/
def holds (x : ι) : Span ι → Bool
  | one a => x == a
  | range a _ _ b => decide (NamedCycle.stepsTo a x ≤ NamedCycle.stepsTo a b)

end Span

/-! ## Lists -/

/-- One or more items with commas between them. -/
structure Series (τ : Type) where
  first : τ
  -- The other items, each with the white space around the comma before it.
  others : List (Gap × Gap × τ)

namespace Series

variable {τ : Type}

def items (s : Series τ) : List τ := s.first :: s.others.map fun o => o.2.2

def othersText (text : τ → Text) : List (Gap × Gap × τ) → Text
  | [] => []
  | (before, after, x) :: rest =>
    before.text ++ .char ',' :: (after.text ++ (text x ++ othersText text rest))

def text (itemText : τ → Text) (s : Series τ) : Text :=
  itemText s.first ++ othersText itemText s.others

end Series

/-! ## Conditions -/

/-- A condition on months, days and hours, of which at least one part is there. -/
structure Schedule where
  months : Option (Series (Span Month))
  afterMonths : Gap
  days : Option (Series (Span Weekday))
  afterDays : Gap
  times : Option (Series ClockRange)
  -- Some part is there.
  listed : months.isSome ∨ days.isSome ∨ times.isSome
  -- White space parts the months from what follows.
  parted : months.isSome → days.isSome ∨ times.isSome → afterMonths.text ≠ []
  -- White space parts the days from the hours.
  parted' : days.isSome → times.isSome → afterDays.text ≠ []

namespace Schedule

def partText {τ : Type} (itemText : τ → Text) (part : Option (Series τ)) : Text :=
  match part with
  | none => []
  | some series => series.text itemText

def partItems {τ : Type} (part : Option (Series τ)) : List τ :=
  match part with
  | none => []
  | some series => series.items

def text (s : Schedule) : Text :=
  partText Span.text s.months ++ (s.afterMonths.text ++ (partText Span.text s.days ++
    (s.afterDays.text ++ partText ClockRange.text s.times)))

/-- The members that some span of a part holds. -/
def selection {ι : Type} [NamedCycle ι] (part : Option (Series (Span ι))) : Selection ι :=
  ⟨fun x => (partItems part).any (Span.holds x)⟩

/-- The windows of a schedule: one for each daily range, or one for the whole day, all with the
same days and months. -/
def windows (s : Schedule) : List TimeWindow :=
  match s.times with
  | none => [⟨selection s.days, selection s.months, none⟩]
  | some series =>
    series.items.map fun r => ⟨selection s.days, selection s.months, some r.hours⟩

end Schedule

/-- A dimension that a condition may bound. -/
inductive Axis where
  | weight | height
deriving DecidableEq

namespace Axis

def name : Axis → Text
  | weight => weightAxis
  | height => heightAxis

def unit : Axis → CodePoint
  | weight => .char 't'
  | height => .char 'm'

end Axis

/-- A condition that bounds a dimension. -/
structure Bound where
  axis : Axis
  beforeOperator : Gap
  operator : Operator
  beforeNumber : Gap
  whole : Digits
  fraction : Option Digits
  unit : Option Gap

namespace Bound

def fractionText (b : Bound) : Text :=
  match b.fraction with
  | none => []
  | some f => .char '.' :: f.text

def unitText (b : Bound) : Text :=
  match b.unit with
  | none => []
  | some gap => gap.text ++ [b.axis.unit]

def text (b : Bound) : Text :=
  b.axis.name ++ (b.beforeOperator.text ++ (Text.ofString b.operator.symbol ++
    (b.beforeNumber.text ++ (b.whole.text ++ (b.fractionText ++ b.unitText)))))

def number (b : Bound) : Decimal :=
  .ofParts false b.whole.text ((b.fraction.map Digits.text).getD []) 0

def comparison {α : Type} [Quantity α] (b : Bound) : Comparison α :=
  ⟨b.operator, Quantity.ofNumeral (.finite b.number)⟩

end Bound

/-- A condition. -/
inductive Phrase where
  | schedule (s : Schedule)
  | bound (b : Bound)

namespace Phrase

def text : Phrase → Text
  | schedule s => s.text
  | bound b => b.text

def windows : Phrase → List TimeWindow
  | schedule s => s.windows
  | bound _ => []

def axis? : Phrase → Option Axis
  | schedule _ => none
  | bound b => some b.axis

/-- The comparison of a condition that bounds a dimension. -/
def comparisonOn? {α : Type} [Quantity α] (axis : Axis) : Phrase → Option (Comparison α)
  | schedule _ => none
  | bound b => if b.axis = axis then some b.comparison else none

end Phrase

/-! ## Tags -/

/-- A condition with the white space around it. -/
structure Segment where
  before : Gap
  phrase : Phrase
  after : Gap

def Segment.text (s : Segment) : Text := s.before.text ++ s.phrase.text ++ s.after.text

/-- The value of a conditional tag. -/
structure WrittenTag where
  beforeValue : Gap
  value : Text
  value_notBlank : ∃ c ∈ value, isBlank c = false
  value_noAt : .char '@' ∉ value
  afterValue : Gap
  beforeConditions : Gap
  segments : List Segment
  ne_nil : segments ≠ []
  -- No dimension is bounded twice.
  once : (segments.filterMap fun s => s.phrase.axis?).Nodup
  afterConditions : Gap

namespace WrittenTag

def inner (t : WrittenTag) : Text := joined [.char ';'] (t.segments.map Segment.text)

def text (t : WrittenTag) : Text :=
  t.beforeValue.text ++ t.value ++ t.afterValue.text ++ .char '@' ::
    (t.beforeConditions.text ++ (.char '(' :: (t.inner ++ [.char ')'])) ++ t.afterConditions.text)

/-- The restriction that a tag states: the trimmed value, the windows of its conditions in their
order, and for each dimension the comparison with it. -/
def restriction {α : Type} [Quantity α] (key : Text) (t : WrittenTag) : Restriction α where
  key := key
  value := trim t.value
  windows := t.segments.flatMap fun s => s.phrase.windows
  weight := t.segments.findSome? fun s => s.phrase.comparisonOn? .weight
  height := t.segments.findSome? fun s => s.phrase.comparisonOn? .height
  raw := t.text

end WrittenTag

end RoadRules.Condition
