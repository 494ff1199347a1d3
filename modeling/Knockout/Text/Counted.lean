/-!
# Counted nouns

A count and its noun, in the singular for one thing and in the plural for any other number.
-/

namespace Knockout.Text

/-- A count with the noun it counts. -/
def counted (n : Nat) (one many : String) : String :=
  if n = 1 then s!"{n} {one}" else s!"{n} {many}"

end Knockout.Text
