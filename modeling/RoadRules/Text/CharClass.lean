import RoadRules.Text.Basic

set_option autoImplicit false

/-! # Character classes

A class of characters is a list of ranges of code points. The tables of the modules beside this
one are values of this type; membership walks the list, and ASCII characters are decided by the
first few ranges. No range holds a surrogate. -/

namespace RoadRules.Text

/-- A set of characters, as ranges of code points with both ends included. -/
structure CharClass where
  /-- The ranges, in ascending order. -/
  ranges : List (Nat × Nat)

namespace CharClass

/-- Whether a code point lies in one of the ranges. -/
def containsCode (k : CharClass) (n : Nat) : Bool :=
  k.ranges.any fun r => decide (r.1 ≤ n) && decide (n ≤ r.2)

/-- Whether a code point lies in one of the ranges by its number. -/
def contains (k : CharClass) (c : CodePoint) : Bool := k.containsCode c.code

theorem containsCode_iff (k : CharClass) (n : Nat) :
    k.containsCode n = true ↔ ∃ r ∈ k.ranges, r.1 ≤ n ∧ n ≤ r.2 := by
  simp [containsCode]

end CharClass

end RoadRules.Text
