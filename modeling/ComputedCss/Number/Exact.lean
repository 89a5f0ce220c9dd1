import ComputedCss.Number.Scalar

/-!
# Exact arithmetic

The rationals as the numbers of a style sheet. Laws that doubles satisfy only up to rounding hold
here, over the same definitions with which the program computes.

* `Exact.truncate` rounds towards zero, `Exact.round` to the nearest whole number.
* `Exact.floor_floor`: what is whole is its own floor.
-/

namespace ComputedCss

namespace Exact

/-- The whole number nearest to `x` on the side of zero. -/
def truncate (x : Rat) : Int :=
  if x < 0 then x.ceil else x.floor

/-- The nearest whole number, halves going away from zero. -/
def round (x : Rat) : Int :=
  if x < 0 then (x - 1 / 2).ceil else (x + 1 / 2).floor

/-- The value of a numeral. -/
def ofNumeral (n : Numeral) : Rat :=
  (if n.negative then -1 else 1) * (n.digits : Rat) * (10 : Rat) ^ n.exponent

/-- A whole number in digits, and any other as a fraction. -/
def text (x : Rat) : String :=
  if x.den = 1 then toString x.num else toString x.num ++ "/" ++ toString x.den

end Exact

instance : Scalar Rat where
  lt x y := decide (x < y)
  abs := Rat.abs
  floor x := x.floor
  round x := Exact.round x
  rem x y := x - y * Exact.truncate (x / y)
  wholePart x := x.floor.toNat
  ofNumeral := Exact.ofNumeral
  text := Exact.text
  describe := Exact.text

theorem Exact.floor_floor (x : Rat) : Scalar.floor (Scalar.floor x) = Scalar.floor x := by
  show (((x.floor : Rat).floor : Int) : Rat) = x.floor
  rw [Rat.floor_intCast]

end ComputedCss
