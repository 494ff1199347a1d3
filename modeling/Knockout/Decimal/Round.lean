/-!
# Rounding quotients

`roundQuotient` rounds a quotient of natural numbers to the nearest integer and a half to the even
neighbour.
-/

namespace Knockout.Decimal

/-- The integer nearest to `num / den`; of two that are equally near, the even one. -/
def roundQuotient (num den : Nat) : Nat :=
  let q := num / den
  let r := num % den
  if 2 * r < den then q
  else if den < 2 * r then q + 1
  else if q % 2 = 0 then q
  else q + 1

end Knockout.Decimal
