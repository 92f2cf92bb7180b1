import Mathlib.Algebra.Order.Field.Rat
import Mathlib.Algebra.Order.Field.Basic
import RoadRules.Network.Geometry
import RoadRules.Proofs.Number.Lawful

set_option autoImplicit false

/-! # Exact quantities

The rational numbers as a type of quantities. Arithmetic on them is exact, so whatever is proved
of lawful quantities is true of them. They have no infinities: every rational number is bounded,
and only an edge that may not be travelled is impassable. The numerals for the infinities and for
the undefined number stand for zero. A distance in the plane is measured along the two axes, which
is exact between nodes on a line with one of them; great circles are not measured. -/

namespace RoadRules

def Decimal.toRat (d : Decimal) : ℚ :=
  (if d.negative then -1 else 1) * d.digits * (10 : ℚ) ^ d.exponent

/-- The rational number that a numeral stands for. -/
def Numeral.toRat : Numeral → ℚ
  | .finite d => d.toRat
  | .infinite _ | .undefined => 0

instance : Quantity ℚ where
  zero := 0
  decideLt := inferInstance
  decideLe := inferInstance
  ofNumeral := Numeral.toRat
  isInfinite _ := false
  isBounded _ := true
  text _ q := toString q
  fixedText _ q := toString q

instance : LawfulQuantity ℚ where
  le_total := fun a b => le_total a b
  le_trans := fun h₁ h₂ => le_trans h₁ h₂
  lt_iff_not_le := lt_iff_not_ge
  add_le_add := fun h _ => add_le_add_left h _
  le_add := fun h => le_add_of_nonneg_right h
  mul_nonneg := fun ha hb => mul_nonneg ha hb
  div_nonneg := fun ha hb => div_nonneg ha (le_of_lt hb)
  isBounded_zero := rfl
  isBounded_of_le := fun _ _ => rfl

instance : Geometry ℚ where
  straight a b := |b.x - a.x| + |b.y - a.y|
  greatCircle _ _ := .error .outsideDomain
  distanceFrom x y n := |n.x - x| + |n.y - y|
  isIndexedBefore _ _ := false

end RoadRules
