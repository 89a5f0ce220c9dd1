import ComputedCss.Number.Numeral

/-!
# The numbers of a style sheet

Values are computed over any type of numbers with the operations below. The program computes with
`Float`; exact arithmetic is another instance, so that a law of the rationals can be stated of the
same definitions.
-/

namespace ComputedCss

/-- Numbers that lengths, percentages and colour channels can be computed with. -/
class Scalar (ν : Type) extends Add ν, Sub ν, Mul ν, Div ν, Neg ν, BEq ν, OfScientific ν where
  /-- Strict order; a value that is no number is not ordered. -/
  lt : ν → ν → Bool
  /-- The value without its sign. -/
  abs : ν → ν
  /-- The greatest whole number that is not greater. -/
  floor : ν → ν
  /-- The nearest whole number, halves going away from zero. -/
  round : ν → ν
  /-- The remainder of the division that rounds towards zero; it has the sign of the dividend. -/
  rem : ν → ν → ν
  /-- The whole part, with zero for a negative value and for one that is no number. -/
  wholePart : ν → Nat
  /-- The value of a numeral. -/
  ofNumeral : Numeral → ν
  /-- The text of a number, which a number token reads back whenever the number is finite. -/
  text : ν → String
  /-- The text of a number in a description, where a whole number shows a point. -/
  describe : ν → String

namespace Scalar

variable {ν : Type} [Scalar ν]

/-- The value itself inside the bounds, else the bound that it passes. -/
def clamp (low high x : ν) : ν :=
  if lt x low then low else if lt high x then high else x

/-- The byte nearest to a value; what lies outside 0 to 255 goes to the end of the range. -/
def toByte (x : ν) : UInt8 :=
  (wholePart (clamp 0.0 255.0 (round x))).toUInt8

end Scalar

end ComputedCss
