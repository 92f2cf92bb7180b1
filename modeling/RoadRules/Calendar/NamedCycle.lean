import RoadRules.Text.Basic

set_option autoImplicit false

/-! # Cycles of named members

Weekdays and months are cycles: finitely many members in a fixed order, the first following the
last, each with a name of its own. This file has what the two share: selections of members, the
selection that an inclusive range walks over, and the way a selection is written as a list of
runs.

A `Selection` is a membership test. `toList` lists its members in the order of the cycle, so two
selections with the same members are the same. -/

namespace RoadRules.Calendar

/-- A closed cycle of named members. -/
class NamedCycle (ι : Type) extends BEq ι, LawfulBEq ι where
  /-- The members, in order. -/
  members : List ι
  name : ι → String
  family : String
  /-- No member is listed twice. -/
  nodup : members.Nodup
  complete : ∀ i : ι, i ∈ members
  name_injective : ∀ i j : ι, name i = name j → i = j

namespace NamedCycle

variable {ι : Type} [NamedCycle ι]

def ofName? (text : Text) : Option ι := members.find? fun i => Text.ofString (name i) == text

/-- The members from one on, around the cycle, back to the one before it. -/
def startingAt (a : ι) : List ι :=
  (members (ι := ι)).dropWhile (· != a) ++ (members (ι := ι)).takeWhile (· != a)

/-- The members from one to another, both included, going forward around the cycle. -/
def walk (a b : ι) : List ι := (startingAt a).takeWhile (· != b) ++ [b]

theorem ofName?_name (i : ι) : ofName? (name i) = some i := by
  unfold ofName?
  have hex : ∃ j : ι,
      members.find? (fun k => Text.ofString (name k) == Text.ofString (name i)) = some j := by
    rw [← Option.isSome_iff_exists, List.find?_isSome]
    exact ⟨i, complete i, by simp⟩
  obtain ⟨j, hj⟩ := hex
  rw [hj]
  have : name j = name i := by
    simpa [Text.ofString_inj] using List.find?_some hj
  rw [name_injective j i this]

theorem name_of_ofName? {text : Text} {i : ι} (h : ofName? text = some i) :
    Text.ofString (name i) = text := by
  simpa using List.find?_some h

end NamedCycle

/-- A set of members of a cycle. -/
structure Selection (ι : Type) where
  selects : ι → Bool

namespace Selection

variable {ι : Type}

def empty : Selection ι := ⟨fun _ => false⟩

def union (a b : Selection ι) : Selection ι := ⟨fun i => a.selects i || b.selects i⟩

def inter (a b : Selection ι) : Selection ι := ⟨fun i => a.selects i && b.selects i⟩

@[ext] theorem ext {a b : Selection ι} (h : ∀ i, a.selects i = b.selects i) : a = b := by
  cases a; cases b; congr; exact funext h

variable [NamedCycle ι]

def ofList (l : List ι) : Selection ι := ⟨fun i => l.contains i⟩

/-- The selected members, in the order of the cycle. -/
def toList (s : Selection ι) : List ι := NamedCycle.members.filter s.selects

def isEmpty (s : Selection ι) : Bool := s.toList.isEmpty

def size (s : Selection ι) : Nat := s.toList.length

def isFull (s : Selection ι) : Bool := NamedCycle.members.all s.selects

/-- The members from one to another, both included, going forward around the cycle. -/
def range (a b : ι) : Selection ι := ofList (NamedCycle.walk a b)

/-- Whether a selection that stands for all members when it is empty admits a member. -/
def admits (s : Selection ι) (i : ι) : Bool := s.isEmpty || s.selects i

/-- Whether two selections, each standing for all members when it is empty, share no member. -/
def apart (a b : Selection ι) : Bool := !a.isEmpty && !b.isEmpty && (a.inter b).isEmpty

/-- The runs of neighbouring selected members, as first and last member each. The run that is
being read is carried along; the end of the cycle ends it. -/
def runsFrom (selects : ι → Bool) : Option (ι × ι) → List ι → List (ι × ι)
  | current, [] => current.toList
  | current, i :: rest =>
    if selects i then
      runsFrom selects (some (match current with | none => (i, i) | some r => (r.1, i))) rest
    else current.toList ++ runsFrom selects none rest

/-- The runs of a selection, in the order of the cycle. -/
def runs (s : Selection ι) : List (ι × ι) := runsFrom s.selects none NamedCycle.members

/-- A run as text: one name, or two names with a dash between them. -/
def runText (r : ι × ι) : Text :=
  if r.1 == r.2 then NamedCycle.name r.1 else NamedCycle.name r.1 ++ "-" ++ NamedCycle.name r.2

/-- A selection as text: its runs with commas between them. -/
def describe (s : Selection ι) : Text := Text.joined "," (s.runs.map runText)

@[simp] theorem mem_toList {s : Selection ι} {i : ι} : i ∈ s.toList ↔ s.selects i = true := by
  simp [toList, NamedCycle.complete i]

theorem isEmpty_iff {s : Selection ι} : s.isEmpty = true ↔ ∀ i, s.selects i = false := by
  rw [isEmpty, List.isEmpty_iff, List.eq_nil_iff_forall_not_mem]
  simp

theorem apart_iff {a b : Selection ι} :
    a.apart b = true ↔ a.isEmpty = false ∧ b.isEmpty = false ∧
      ∀ i, ¬(a.selects i = true ∧ b.selects i = true) := by
  simp [apart, isEmpty_iff, inter, and_assoc]

theorem toList_injective {a b : Selection ι} (h : a.toList = b.toList) : a = b := by
  ext i
  have : i ∈ a.toList ↔ i ∈ b.toList := by rw [h]
  simp only [mem_toList] at this
  exact Bool.eq_iff_iff.mpr this

instance [DecidableEq ι] : DecidableEq (Selection ι) := fun a b =>
  if h : a.toList = b.toList then isTrue (toList_injective h)
  else isFalse fun e => h (by rw [e])

end Selection

end RoadRules.Calendar
