import ComputedCss.Json.Basic
import ComputedCss.Number.Numeral

/-!
# Numbers of JSON

The grammar is `'-'? ('0' | nonzero digit*) ('.' digit+)? (('e' | 'E') sign? digit+)?`. A number
without point and exponent that fits in 64 bits is an integer.

Any other number is a double, and is computed in steps that round each: the leading digits that fit
in 64 bits make a whole number, which is then multiplied or divided by a power of ten.
-/

namespace ComputedCss.Json

/-- The leading digits of a number, as far as they fit in 64 bits, and the power of ten by which
they are to be scaled. -/
structure Significand where
  value : Nat
  exponent : Int

namespace Significand

/-- The value with one more digit, if it still fits in 64 bits. -/
def push? (value : Nat) (digit : Char) : Option Nat :=
  let next := 10 * value + (digit.toNat - 48)
  if next < Nat.pow 2 64 then some next else none

/-- Takes digits before the point: those that do not fit count as a power of ten. -/
def takeWhole (value : Nat) : List Char → Significand
  | [] => ⟨value, 0⟩
  | digit :: rest =>
    match push? value digit with
    | some next => takeWhole next rest
    | none => ⟨value, (digit :: rest).length⟩

/-- Takes digits after the point: those that do not fit are dropped. -/
def takeFraction (s : Significand) : List Char → Significand
  | [] => s
  | digit :: rest =>
    match push? s.value digit with
    | some next => takeFraction ⟨next, s.exponent - 1⟩ rest
    | none => s

end Significand

/-- A power of ten as a double. -/
def tenTo (n : Nat) : Float :=
  Float.ofScientific 1 false n

/-- The greatest power of ten that is a double. -/
def greatestPower : Nat := 308

/-- Divides by a power of ten, `greatestPower` places at a time. -/
def scaleDown (x : Float) (places : Nat) : Float :=
  if _h : greatestPower < places then
    if x == 0.0 then x else scaleDown (x / tenTo greatestPower) (places - greatestPower)
  else x / tenTo places
termination_by places
decreasing_by
  have : 0 < greatestPower := by decide
  omega

/-- Multiplies by a power of ten; what leaves the range of doubles is infinite. -/
def scaleUp (x : Float) (places : Nat) : Float :=
  if greatestPower < places then if x == 0.0 then x else 1.0 / 0.0
  else x * tenTo places

/-- The double of some leading digits. -/
def Significand.toFloat (s : Significand) : Float :=
  match s.exponent with
  | .ofNat places => scaleUp (Float.ofNat s.value) places
  | .negSucc places => scaleDown (Float.ofNat s.value) (places + 1)

/-- The double of a number by its digits. -/
def doubleOf (negative : Bool) (whole fraction : List Char) (exponent : Int) : Float :=
  let s := (Significand.takeWhole 0 whole).takeFraction fraction
  let x := Significand.toFloat ⟨s.value, s.exponent + exponent⟩
  if negative then -x else x

/-- The value of a number without point and exponent. -/
def wholeNumber (negative : Bool) (digits : List Char) : Json :=
  let n := Numeral.digitsValue digits
  if negative then
    if n = 0 then .number (-0.0)
    else if n ≤ Nat.pow 2 63 then .integer (-n)
    else .number (doubleOf true digits [] 0)
  else if n < Nat.pow 2 64 then .integer n
  else .number (doubleOf false digits [] 0)

/-- Digits without a needless zero in front. -/
def splitWhole (text : List Char) : Option (List Char × List Char) :=
  match Numeral.splitDigits text with
  | ([], _) => none
  | (['0'], rest) => some (['0'], rest)
  | ('0' :: _, _) => none
  | (digits, rest) => some (digits, rest)

/-- The digits after a point, of which there has to be one. -/
def splitPoint (text : List Char) : Option (List Char × List Char) :=
  match text with
  | '.' :: rest =>
    match Numeral.splitDigits rest with
    | ([], _) => none
    | (digits, rest) => some (digits, rest)
  | _ => some ([], text)

/-- Whether an `e` is next, which has to be followed by a power of ten. -/
def startsExponent : List Char → Bool
  | c :: _ => c == 'e' || c == 'E'
  | [] => false

/-- Reads a number from the front of a text. -/
def readNumber (text : List Char) : Option (Json × List Char) := do
  let (negative, text) := match text with
    | '-' :: rest => (true, rest)
    | _ => (false, text)
  let (whole, text) ← splitWhole text
  let (fraction, text) ← splitPoint text
  let (exponent, rest) := Numeral.splitExponent text
  if startsExponent text && rest.length == text.length then none
  else if fraction.isEmpty && !startsExponent text then some (wholeNumber negative whole, rest)
  else some (.number (doubleOf negative whole fraction exponent), rest)

end ComputedCss.Json
