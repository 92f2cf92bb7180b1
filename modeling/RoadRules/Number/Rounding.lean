set_option autoImplicit false

/-! # Rounding quotients

Rounding of an exact quotient of natural numbers to the nearest natural number, a half going to
the even neighbour, and the whole part of a square root. Both are exact: the printers of
floating-point numbers and the length of a hypotenuse are built on them. -/

namespace RoadRules

/-- The natural number nearest to `num / den`; a half goes to the even neighbour. -/
def roundHalfEven (num den : Nat) : Nat :=
  let whole := num / den
  let twice := 2 * (num % den)
  if twice < den then whole
  else if den < twice then whole + 1
  else if whole % 2 = 0 then whole else whole + 1

def wholeRoot (n : Nat) : Nat :=
  if n = 0 then 0
  else
    let half := 2 * wholeRoot (n / 4)
    if (half + 1) * (half + 1) ≤ n then half + 1 else half
termination_by n
decreasing_by omega

end RoadRules
