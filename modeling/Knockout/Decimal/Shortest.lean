import Knockout.Decimal.Binary

/-!
# Shortest decimal text

The shortest decimal number that reads back as a given binary one. For one digit, two digits and so
on the two neighbours of the value on that decimal grid are tried; the first grid that has a number
within the bounds of the binary one wins, and there the nearer neighbour.
-/

namespace Knockout.Decimal

/-- A decimal number `0.d₁d₂… * 10 ^ point`. -/
structure Digits where
  digits : List Char
  point : Int
  deriving DecidableEq, Repr

/-- The number of decimal digits before the point of `num / den`, when the number is at least 1;
zero or less counts the zeros after the point. `fuel` bounds the search. -/
def pointOf : Nat → Nat → Nat → Int
  | 0, _, _ => 0
  | fuel + 1, num, den =>
    if den ≤ num then pointOf fuel num (10 * den) + 1
    else if 10 * num < den then pointOf fuel (10 * num) den - 1
    else 0

/-- A number of the decimal grid that rounds to `b`: `count` digits, the last of them worth
`10 ^ (point - count)`. -/
def Binary.onGrid? (b : Binary) (point : Int) (count : Nat) : Option Nat :=
  let (num, den) := b.quotient
  let scale := (count : Int) - point
  let (up, down) := (Nat.pow 10 scale.toNat, Nat.pow 10 (-scale).toNat)
  let (low, high) := b.bounds
  let below := num * up / (den * down)
  let inside (d : Nat) : Bool :=
    let value := 4 * d * den * down
    if b.boundsIncluded then low * up ≤ value && value ≤ high * up
    else low * up < value && value < high * up
  match inside below, inside (below + 1) with
  | true, true => some (roundQuotient (num * up) (den * down))
  | true, false => some below
  | false, true => some (below + 1)
  | false, false => none

/-- The shortest digits of a number above zero, without zeros at their end. -/
def Binary.shortest (b : Binary) : Digits :=
  let (num, den) := b.quotient
  let point := pointOf 1200 num den
  match (List.range 17).findSome? fun i => (b.onGrid? point (i + 1)).map (i + 1, ·) with
  | none => ⟨['0'], 1⟩
  | some (count, value) =>
    let digits := (toString value).toList
    let kept := (digits.reverse.dropWhile (· == '0')).reverse
    ⟨kept, point + (digits.length - count : Int)⟩

/-- Text of a number above zero: positional between `10 ^ -5` and `10 ^ 16`, always with a digit
after the point there, and with a power of ten elsewhere. -/
def Digits.text (d : Digits) : String :=
  let zeros (n : Nat) : List Char := List.replicate n '0'
  let count : Int := d.digits.length
  if count ≤ d.point ∧ d.point ≤ 16 then
    String.ofList (d.digits ++ zeros (d.point - count).toNat ++ ['.', '0'])
  else if 0 < d.point ∧ d.point ≤ 16 then
    String.ofList (d.digits.take d.point.toNat ++ ['.'] ++ d.digits.drop d.point.toNat)
  else if -5 < d.point ∧ d.point ≤ 0 then
    String.ofList (['0', '.'] ++ zeros (-d.point).toNat ++ d.digits)
  else
    let power := toString (d.point - 1)
    match d.digits with
    | [digit] => s!"{digit}e{power}"
    | digit :: rest => s!"{digit}.{String.ofList rest}e{power}"
    | [] => "0.0"

/-- The shortest text that reads back as a number. -/
def shortestText (x : Float) : String :=
  let b := Binary.ofFloat x
  if b.mantissa = 0 then "0.0" else b.shortest.text

end Knockout.Decimal
