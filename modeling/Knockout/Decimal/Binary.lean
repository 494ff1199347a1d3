import Knockout.Decimal.Round

/-!
# Binary fractions

A finite number of the 64-bit binary format, taken apart into a mantissa and a power of two so that
its decimal text can be found in exact arithmetic.
-/

namespace Knockout.Decimal

/-- A nonnegative number `mantissa * 2 ^ exponent`. -/
structure Binary where
  mantissa : Nat
  exponent : Int
  deriving DecidableEq, Repr

namespace Binary

/-- The magnitude of a finite 64-bit number. -/
def ofFloat (x : Float) : Binary :=
  let bits : Nat := x.toBits.toNat
  let field : Nat := (bits >>> 52) % (1 <<< 11)
  let fraction : Nat := bits % (1 <<< 52)
  if field = 0 then ⟨fraction, -1074⟩ else ⟨(1 <<< 52) + fraction, (field : Int) - 1075⟩

/-- The same number as a quotient of natural numbers, with a denominator above zero. -/
def quotient (b : Binary) : Nat × Nat :=
  (b.mantissa <<< b.exponent.toNat, 1 <<< (-b.exponent).toNat)

/-- The numbers that round to this one in 53 bits lie between these two bounds, both over the
denominator of `quotient` times four. The lower bound is nearer where the numbers below lie more
densely. -/
def bounds (b : Binary) : Nat × Nat :=
  let unit := 1 <<< b.exponent.toNat
  let below := if b.mantissa = 1 <<< 52 ∧ -1074 < b.exponent then unit else 2 * unit
  (4 * b.mantissa * unit - below, 4 * b.mantissa * unit + 2 * unit)

/-- Whether the bounds themselves round to this number. -/
def boundsIncluded (b : Binary) : Bool := b.mantissa % 2 == 0

end Binary

/-- Text of a number with a fixed number of digits after the point, at least one: its exact
value is rounded, and a half goes to the even neighbour. -/
def fixedText (places : Nat) (b : Binary) : String :=
  let (num, den) := b.quotient
  let unit := Nat.pow 10 places
  let scaled := roundQuotient (num * unit) den
  let fraction := toString (scaled % unit)
  let zeros := String.ofList (List.replicate (places - fraction.length) '0')
  s!"{scaled / unit}.{zeros}{fraction}"

end Knockout.Decimal
