set_option autoImplicit false

/-! # Powers

The powers of two and of ten, which binary and decimal notation are made of, and the integers that
fit into a machine word of some number of bits. -/

namespace RoadRules

def powerOfTwo (n : Nat) : Nat := Nat.pow 2 n

def powerOfTen (n : Nat) : Nat := Nat.pow 10 n

/-- Whether an integer fits into a signed machine word. -/
def fitsWord (bits : Nat) (n : Int) : Bool :=
  decide (-(powerOfTwo (bits - 1) : Int) ≤ n) && decide (n < (powerOfTwo (bits - 1) : Int))

end RoadRules
