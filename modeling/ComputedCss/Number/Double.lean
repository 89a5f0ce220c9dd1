import ComputedCss.Number.Scalar
import ComputedCss.Number.Notation
import ComputedCss.Text.Caseless

/-!
# Doubles as the numbers of a style sheet

The instance with which the program computes, and the reading of a double from a whole text.
-/

namespace ComputedCss

namespace Binary64

/-- The double nearest to a numeral. Powers of ten that leave the range of doubles whatever the
digits are answered without being computed. -/
def ofNumeral (n : Numeral) : Float :=
  let magnitude : Float :=
    if n.digits = 0 then 0.0
    else if 400 < n.exponent then 1.0 / 0.0
    else if n.exponent + (n.digits.log2 / 3 + 1 : Nat) < -400 then 0.0
    else Float.ofScientific n.digits (decide (n.exponent < 0)) n.exponent.natAbs
  if n.negative then -magnitude else magnitude

/-- Reads a double: a numeral, or `inf`, `infinity` or `nan` in any case, with or without sign. -/
def ofText? (text : String) : Option Float :=
  let (negative, word) := Numeral.splitSign text.toList
  let word := (String.ofList word).toLower
  if word == "inf" || word == "infinity" then some (if negative then -(1.0 / 0.0) else 1.0 / 0.0)
  else if word == "nan" then some (0.0 / 0.0)
  else (Numeral.ofText? text.toList).map ofNumeral

end Binary64

instance : Scalar Float where
  lt x y := x < y
  abs := Float.abs
  floor := Binary64.floor
  round := Binary64.round
  rem := Binary64.remainder
  wholePart := Binary64.natPart
  ofNumeral := Binary64.ofNumeral
  text := NumberFormat.plain.render
  describe := NumberFormat.pointed.render

end ComputedCss
