import Mathlib.Order.Defs.Unbundled
import RoadRules.Number.Quantity

set_option autoImplicit false

/-! # Quantities that obey the laws of numbers

The rules of the library compute with any type of quantities. What can be said about the results
depends on the laws of that type. The class here asks for little: any two quantities can be
compared, adding a quantity that is not negative keeps the order and never lowers a sum, and
products and quotients of quantities that are not negative are not negative. Exact numbers obey
these laws, and so does arithmetic that rounds. Nothing is asked of associativity, so a sum is
always meant in the order in which it is formed. -/

namespace RoadRules

/-- **Quantities that obey the laws of numbers** as far as costs need them. -/
class LawfulQuantity (α : Type) [Quantity α] : Prop where
  -- Of two quantities one is at most the other.
  le_total : ∀ a b : α, a ≤ b ∨ b ≤ a
  -- The order is transitive.
  le_trans : ∀ {a b c : α}, a ≤ b → b ≤ c → a ≤ c
  -- A quantity is less than another one if the other one is not at most it.
  lt_iff_not_le : ∀ {a b : α}, a < b ↔ ¬b ≤ a
  -- Adding a quantity that is not negative keeps the order.
  add_le_add : ∀ {a b c : α}, a ≤ b → Quantity.zero ≤ c → a + c ≤ b + c
  -- Adding a quantity that is not negative never lowers a sum.
  le_add : ∀ {a c : α}, Quantity.zero ≤ c → a ≤ a + c
  -- A product of quantities that are not negative is not negative.
  mul_nonneg : ∀ {a b : α}, Quantity.zero ≤ a → Quantity.zero ≤ b → Quantity.zero ≤ a * b
  -- A quotient of quantities that are not negative is not negative.
  div_nonneg : ∀ {a b : α}, Quantity.zero ≤ a → Quantity.zero < b → Quantity.zero ≤ a / b
  -- Zero is below the positive infinity.
  isBounded_zero : Quantity.isBounded (Quantity.zero : α) = true
  -- What is at most a bounded quantity is bounded.
  isBounded_of_le : ∀ {a b : α}, a ≤ b → Quantity.isBounded b = true →
    Quantity.isBounded a = true

namespace LawfulQuantity

variable {α : Type} [Quantity α] [LawfulQuantity α]

theorem le_refl (a : α) : a ≤ a := (le_total a a).elim id id

theorem le_of_lt {a b : α} (h : a < b) : a ≤ b :=
  (le_total a b).resolve_right (lt_iff_not_le.mp h)

theorem le_of_not_lt {a b : α} (h : ¬a < b) : b ≤ a :=
  Decidable.byContradiction fun hle => h (lt_iff_not_le.mpr hle)

theorem lt_of_lt_of_le {a b c : α} (hab : a < b) (hbc : b ≤ c) : a < c :=
  lt_iff_not_le.mpr fun hca => lt_iff_not_le.mp hab (le_trans hbc hca)

theorem lt_of_le_of_lt {a b c : α} (hab : a ≤ b) (hbc : b < c) : a < c :=
  lt_iff_not_le.mpr fun hca => lt_iff_not_le.mp hbc (le_trans hca hab)

instance : Trans ((· ≤ ·) : α → α → Prop) (· ≤ ·) (· ≤ ·) := ⟨le_trans⟩

instance : IsTrans α (· < ·) := ⟨fun _ _ _ hab hbc => lt_of_lt_of_le hab (le_of_lt hbc)⟩

end LawfulQuantity

end RoadRules
