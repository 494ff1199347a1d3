/-!
# Saturating sums

Sums of fixed width that stop at the greatest or least value instead of wrapping round. Main
statements: `toNat_addCapped` and `toInt_addClamped`, as long as the sum fits it is exact.
-/

namespace Knockout

/-- Sum of two counts; one that does not fit becomes the greatest value. -/
def addCapped (a b : UInt64) : UInt64 :=
  if a.toNat + b.toNat < UInt64.size then a + b else UInt64.ofNat (UInt64.size - 1)

/-- Sum of two differences; one that does not fit becomes the nearest value that does. -/
def addClamped (a b : Int64) : Int64 :=
  let sum := a.toInt + b.toInt
  if sum < Int64.minValue.toInt then Int64.minValue
  else if Int64.maxValue.toInt < sum then Int64.maxValue
  else a + b

/-- A sum that fits is exact. -/
theorem toNat_addCapped {a b : UInt64} (h : a.toNat + b.toNat < UInt64.size) :
    (addCapped a b).toNat = a.toNat + b.toNat := by
  rw [addCapped, if_pos h, UInt64.toNat_add, Nat.mod_eq_of_lt h]

/-- A sum that fits is exact. -/
theorem toInt_addClamped {a b : Int64} (low : Int64.minValue.toInt ≤ a.toInt + b.toInt)
    (high : a.toInt + b.toInt ≤ Int64.maxValue.toInt) :
    (addClamped a b).toInt = a.toInt + b.toInt := by
  rw [addClamped, if_neg (Int.not_lt.2 low), if_neg (Int.not_lt.2 high), Int64.toInt_add]
  rw [Int64.toInt_minValue] at low
  rw [Int64.toInt_maxValue] at high
  exact Int.bmod_eq_of_le (by omega) (by omega)

end Knockout
