import ComputedCss.Number.Binary64
import ComputedCss.Number.Shortest

/-!
# Texts of a double

A text of a number has the fewest digits that read back. `NumberFormat` holds what else there is to
decide: where positional notation ends, how a whole number ends, how an exponent is signed, which of
two equally near decimals is taken, and what stands for the values that are not finite.

* `NumberFormat.plain` is used inside values and messages, `NumberFormat.pointed` inside
  descriptions, `NumberFormat.json` inside JSON.
-/

namespace ComputedCss

/-- How a number is written. -/
structure NumberFormat where
  /-- The exponents of the leading digit for which the number is written without an exponent. -/
  isPositional : Int → Bool
  /-- Whether a whole number without an exponent ends in a point and a zero. -/
  pointsWhole : Bool
  /-- Whether a positive exponent has a sign. -/
  signsExponent : Bool
  /-- Which of two equally near decimals is taken. -/
  tie : Shortest.Tie
  /-- The text of a value that is no number. -/
  notANumber : String
  /-- The text of an infinite value, given whether it is negative. -/
  infinite : Bool → String

namespace NumberFormat

/-- Always positional, and a whole number has no point: `24`, `0.1`, `-0`, `inf`. -/
def plain : NumberFormat where
  isPositional _ := true
  pointsWhole := false
  signsExponent := false
  tie := .upward
  notANumber := "NaN"
  infinite negative := if negative then "-inf" else "inf"

/-- Positional from `0.0001` to below `10 ^ 16`, and every number shows a point or an exponent:
`24.0`, `1e16`, `1e-5`. -/
def pointed : NumberFormat where
  isPositional e := -4 ≤ e && e < 16
  pointsWhole := true
  signsExponent := false
  tie := .upward
  notANumber := "NaN"
  infinite negative := if negative then "-inf" else "inf"

/-- Positional from `0.00001` to below `10 ^ 16`, with signed exponents, and `null` for what is not
finite: `24.0`, `1.5e+16`, `1e-6`. -/
def json : NumberFormat where
  isPositional e := -5 ≤ e && e < 16
  pointsWhole := true
  signsExponent := true
  tie := .toEven
  notANumber := "null"
  infinite _ := "null"

/-! ## Layout -/

/-- `n` zeros. -/
def zeros (n : Nat) : List Char :=
  List.replicate n '0'

/-- Digits with a decimal exponent, written without one. -/
def positional (format : NumberFormat) (digits : List Char) (exponent : Int) : List Char :=
  match exponent with
  | .ofNat n => digits ++ zeros n ++ (if format.pointsWhole then ['.', '0'] else [])
  | .negSucc n =>
    let places := n + 1
    if places < digits.length then
      digits.take (digits.length - places) ++ '.' :: digits.drop (digits.length - places)
    else '0' :: '.' :: zeros (places - digits.length) ++ digits

/-- Digits written with the exponent of the leading one. -/
def scientific (format : NumberFormat) (digits : List Char) (leading : Int) : List Char :=
  let fraction := digits.drop 1
  digits.take 1 ++ (if fraction.isEmpty then [] else '.' :: fraction) ++ 'e' ::
    (match leading with
    | .ofNat n => (if format.signsExponent then ['+'] else []) ++ Nat.toDigits 10 n
    | .negSucc n => '-' :: Nat.toDigits 10 (n + 1))

/-- The characters of a decimal. -/
def layout (format : NumberFormat) (d : Decimal) : List Char :=
  let digits := Nat.toDigits 10 d.digits
  let leading := d.exponent + digits.length - 1
  if format.isPositional leading then format.positional digits d.exponent
  else format.scientific digits leading

/-- The text of a double. -/
def render (format : NumberFormat) (x : Float) : String :=
  match Binary64.ofFloat x with
  | .notANumber => format.notANumber
  | .infinite negative => format.infinite negative
  | .finite negative m q =>
    String.ofList ((if negative then ['-'] else []) ++
      format.layout (Shortest.decimal format.tie m q))

end NumberFormat

end ComputedCss
