import RoadRules.Ident
import RoadRules.OrderedMap
import RoadRules.Restriction.Basic

set_option autoImplicit false

/-! # Ways

A way is a tagged line through nodes, as a map has it. Its tags keep the order in which they were
written. -/

namespace RoadRules

/-- A point of a way: longitude and latitude, or planar coordinates. -/
structure Node (α : Type) where
  id : Ident
  x : α
  y : α
deriving DecidableEq

/-- The tags of a way, in the order in which they were written. -/
abbrev Tags : Type := OrderedMap Text Text

/-- A tagged line through nodes. -/
structure Way (α : Type) where
  id : Ident
  tags : Tags
  nodes : List (Node α)

namespace Way

variable {α : Type}

/-- The value of the tag for the category of a road. -/
def category (w : Way α) : Option Text := w.tags.get? "highway"

def conditionalTags (w : Way α) : List (Text × Text) :=
  w.tags.entries.filter fun e => isConditionalKey e.1

/-- The pairs of neighbouring nodes, from the start to the end. -/
def steps : List (Node α) → List (Node α × Node α)
  | a :: b :: rest => (a, b) :: steps (b :: rest)
  | _ => []

/-- The segments of a way: its pairs of neighbouring nodes. -/
def segments (w : Way α) : List (Node α × Node α) := steps w.nodes

theorem steps_eq_nil_iff (ns : List (Node α)) : steps ns = [] ↔ ns.length < 2 := by
  match ns with
  | [] => simp [steps]
  | [_] => simp [steps]
  | _ :: _ :: _ => simp [steps]

/-- Both ends of a segment are nodes of the way. -/
theorem mem_nodes_of_mem_segments {w : Way α} {s : Node α × Node α} (h : s ∈ w.segments) :
    s.1 ∈ w.nodes ∧ s.2 ∈ w.nodes := by
  have key : ∀ ns : List (Node α), s ∈ steps ns → s.1 ∈ ns ∧ s.2 ∈ ns := by
    intro ns
    induction ns with
    | nil => intro hs; simp [steps] at hs
    | cons a rest ih =>
      cases rest with
      | nil => intro hs; simp [steps] at hs
      | cons b rest =>
        intro hs
        rcases List.mem_cons.mp hs with rfl | hs
        · simp
        · exact ⟨List.mem_cons_of_mem _ (ih hs).1, List.mem_cons_of_mem _ (ih hs).2⟩
  exact key w.nodes h

/-- A node of a line of at least two nodes is an end of one of its segments. -/
theorem exists_mem_steps {ns : List (Node α)} {n : Node α} (hlength : 2 ≤ ns.length)
    (hn : n ∈ ns) : ∃ s ∈ steps ns, n = s.1 ∨ n = s.2 := by
  match ns with
  | a :: b :: rest =>
    rcases List.mem_cons.mp hn with rfl | hn
    · exact ⟨_, List.mem_cons_self, Or.inl rfl⟩
    · match rest with
      | [] =>
        cases List.mem_singleton.mp hn
        exact ⟨_, List.mem_cons_self, Or.inr rfl⟩
      | c :: rest =>
        have hrest : 2 ≤ (b :: c :: rest).length := Nat.le_add_left 2 rest.length
        obtain ⟨s, hs, hend⟩ := exists_mem_steps hrest hn
        exact ⟨s, List.mem_cons_of_mem _ hs, hend⟩

end Way

end RoadRules
