import RoadRules.Proofs.Number.Rational

set_option autoImplicit false

/-! # Quantities with exact arithmetic

The laws that comparing two costs needs, besides those that say that costs are not negative: sums
and products of quantities that are not negative grow with their parts, and a quotient grows when
its divisor falls. For costs to be equal, a sum must not depend on the order of its parts either.
Exact numbers obey all of these laws. -/

namespace RoadRules

/-- **Quantities whose operations keep the order** on quantities that are not negative. -/
class MonotoneQuantity (α : Type) [Quantity α] : Prop extends LawfulQuantity α where
  -- A sum grows with its second part.
  add_le_add_left : ∀ {a b c : α}, b ≤ c → a + b ≤ a + c
  -- A product grows with its factors.
  mul_le_mul : ∀ {a b c d : α}, Quantity.zero ≤ a → Quantity.zero ≤ c → a ≤ b → c ≤ d →
    a * c ≤ b * d
  -- A factor that is at least one makes nothing smaller.
  le_mul : ∀ {a b : α}, Quantity.zero ≤ a → Quantity.ofNat 1 ≤ b → a ≤ a * b
  -- One is greater than zero.
  zero_lt_one : Quantity.zero < (Quantity.ofNat 1 : α)
  -- What is divided by something that is no greater is at least one.
  one_le_div : ∀ {a b : α}, Quantity.zero < b → b ≤ a → Quantity.ofNat 1 ≤ a / b
  -- A quotient grows when its divisor falls.
  div_le_div : ∀ {a b c : α}, Quantity.zero ≤ a → Quantity.zero < b → b ≤ c → a / c ≤ a / b
  -- What is at least an infinite quantity that is not negative is infinite.
  isInfinite_of_le : ∀ {a b : α}, Quantity.zero ≤ a → a ≤ b → Quantity.isInfinite a = true →
    Quantity.isInfinite b = true

/-- **Quantities with exact sums**, whose parts can come in any order. -/
class ExactQuantity (α : Type) [Quantity α] : Prop extends LawfulQuantity α where
  -- Two quantities of which none is greater are equal.
  le_antisymm : ∀ {a b : α}, a ≤ b → b ≤ a → a = b
  -- What is added first and what is added then can change places.
  add_right_comm : ∀ a b c : α, a + b + c = a + c + b

theorem MonotoneQuantity.add_le_add_both {α : Type} [Quantity α] [MonotoneQuantity α] {a b c d : α}
    (hab : a ≤ b) (hc : Quantity.zero ≤ c) (hcd : c ≤ d) : a + c ≤ b + d := calc
  a + c ≤ b + c := LawfulQuantity.add_le_add hab hc
  _ ≤ b + d := add_le_add_left hcd

theorem Quantity.ofNat_rat_one : (Quantity.ofNat 1 : ℚ) = 1 := by
  decide +kernel

instance : MonotoneQuantity ℚ where
  add_le_add_left := fun h => add_le_add_right h _
  mul_le_mul := fun ha hc hab hcd => mul_le_mul hab hcd hc (le_trans ha hab)
  le_mul := fun ha hb => le_mul_of_one_le_right ha (Quantity.ofNat_rat_one ▸ hb)
  zero_lt_one := by
    rw [Quantity.ofNat_rat_one]
    exact zero_lt_one
  one_le_div := fun hb hab => by
    rw [Quantity.ofNat_rat_one]
    exact (one_le_div hb).mpr hab
  div_le_div := fun ha hb hbc => div_le_div_of_nonneg_left ha hb hbc
  isInfinite_of_le := fun _ _ h => h

instance : ExactQuantity ℚ where
  le_antisymm := fun hab hba => le_antisymm hab hba
  add_right_comm := add_right_comm

end RoadRules
