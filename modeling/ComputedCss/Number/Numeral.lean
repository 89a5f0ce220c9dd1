/-!
# Decimal numerals

A numeral is a signed natural number times a power of ten. Two grammars produce one:

* `Numeral.scan` takes the longest number token from the front of a text,
  `sign? (digit+ ('.' digit+)? | '.' digit+) (('e' | 'E') sign? digit+)?`;
* `Numeral.ofText?` reads a whole text, and there a point may also end the digits.
-/

namespace ComputedCss

/-- `± digits · 10 ^ exponent`. -/
structure Numeral where
  negative : Bool
  digits : Nat
  exponent : Int
deriving DecidableEq, Repr

namespace Numeral

/-- The number written by decimal digits, the most significant first. -/
def digitsValue (digits : List Char) : Nat :=
  digits.foldl (fun n c => 10 * n + (c.toNat - 48)) 0

/-- The sign in front of a text, and the text after it. -/
def splitSign : List Char → Bool × List Char
  | '+' :: rest => (false, rest)
  | '-' :: rest => (true, rest)
  | text => (false, text)

/-- The digits at the front of a text, and the text after them. -/
def splitDigits (text : List Char) : List Char × List Char :=
  (text.takeWhile Char.isDigit, text.dropWhile Char.isDigit)

/-- The digits after a point, which is left alone unless a digit follows it. -/
def splitFraction (text : List Char) : List Char × List Char :=
  match text with
  | '.' :: rest =>
    let (digits, rest) := splitDigits rest
    if digits.isEmpty then ([], text) else (digits, rest)
  | _ => ([], text)

/-- The power of ten after an `e`, which is left alone unless a digit follows it. -/
def splitExponent (text : List Char) : Int × List Char :=
  match text with
  | c :: rest =>
    if c == 'e' || c == 'E' then
      let (negative, rest) := splitSign rest
      let (digits, rest) := splitDigits rest
      if digits.isEmpty then (0, text)
      else (if negative then -(digitsValue digits : Int) else digitsValue digits, rest)
    else (0, text)
  | [] => (0, [])

/-- The numeral with the given whole and fractional digits, scaled by a power of ten. -/
def ofParts (negative : Bool) (whole fraction : List Char) (scale : Int) : Numeral :=
  ⟨negative, digitsValue (whole ++ fraction), scale - fraction.length⟩

/-- The longest number token at the front of a text, and the text after it. -/
def scan (text : List Char) : Option (Numeral × List Char) :=
  let (negative, rest) := splitSign text
  let (whole, rest) := splitDigits rest
  let (fraction, rest) := splitFraction rest
  if whole.isEmpty && fraction.isEmpty then none
  else
    let (scale, rest) := splitExponent rest
    some (ofParts negative whole fraction scale, rest)

/-- The numeral that a whole text writes. -/
def ofText? (text : List Char) : Option Numeral :=
  let (negative, rest) := splitSign text
  let (whole, rest) := splitDigits rest
  let (fraction, rest) := match rest with
    | '.' :: rest => splitDigits rest
    | _ => ([], rest)
  if whole.isEmpty && fraction.isEmpty then none
  else
    let (scale, rest) := splitExponent rest
    if rest.isEmpty then some (ofParts negative whole fraction scale) else none

end Numeral

/-- Whether a number token stands at the front of a text: a digit, with at most a sign and a point
before it. -/
def startsNumber (text : List Char) : Bool :=
  let fromPoint : List Char → Bool
    | '.' :: c :: _ => c.isDigit
    | c :: _ => c.isDigit
    | [] => false
  match text with
  | '+' :: rest => fromPoint rest
  | '-' :: rest => fromPoint rest
  | rest => fromPoint rest

end ComputedCss
