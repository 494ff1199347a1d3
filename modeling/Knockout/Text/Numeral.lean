/-!
# Numerals

Decimal numerals that fit in 32 bits. `digitsValue` is the value of a run of digits;
`smallNumber?` reads one that fits, and `ofLiteral?` allows a plus sign before it.
-/

namespace Knockout.Text

/-- Value of a run of decimal digits. -/
def digitsValue (digits : List Char) : Nat :=
  digits.foldl (fun n c => 10 * n + (c.toNat - '0'.toNat)) 0

/-- Reads a nonempty run of ASCII digits whose value fits in 32 bits. -/
def smallNumber? (digits : List Char) : Option UInt32 :=
  if digits ≠ [] ∧ digits.all Char.isDigit ∧ digitsValue digits < UInt32.size then
    some (UInt32.ofNat (digitsValue digits))
  else none

/-- Reads a numeral as `smallNumber?` does, with a plus sign allowed before it. -/
def ofLiteral? (literal : String) : Option UInt32 :=
  match literal.toList with
  | '+' :: digits => smallNumber? digits
  | digits => smallNumber? digits

end Knockout.Text
