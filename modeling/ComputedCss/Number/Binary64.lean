/-!
# The parts of a double

A finite double is `± mantissa · 2 ^ exponent`. Rounding to whole numbers and the remainder are
computed on these parts, exactly, over the natural numbers.

* `Binary64.ofFloat` takes a double apart, `Binary64.pack` puts one together.
* `Binary64.floor`, `Binary64.round`, `Binary64.remainder` and `Binary64.natPart` are the
  operations.
-/

namespace ComputedCss

/-- A double, by its parts. -/
inductive Binary64 where
  | notANumber
  | infinite (negative : Bool)
  /-- `± mantissa · 2 ^ exponent`, with a mantissa of at most 53 bits. -/
  | finite (negative : Bool) (mantissa : Nat) (exponent : Int)
deriving DecidableEq, Repr

namespace Binary64

/-- The parts that a 64-bit pattern stands for. -/
def ofBits (bits : Nat) : Binary64 :=
  let negative := decide (Nat.pow 2 63 ≤ bits)
  let biased : Nat := bits / Nat.pow 2 52 % Nat.pow 2 11
  let fraction : Nat := bits % Nat.pow 2 52
  if biased = 2047 then
    if fraction = 0 then .infinite negative else .notANumber
  else if biased = 0 then .finite negative fraction (-1074)
  else .finite negative (Nat.pow 2 52 + fraction) ((biased : Int) - 1075)

/-- The parts of a double. -/
def ofFloat (x : Float) : Binary64 :=
  ofBits x.toBits.toNat

/-- The double `± mantissa · 2 ^ exponent`, for a mantissa below `2 ^ 53`, an exponent of at least
`-1074` and a value in range: the mantissa is shifted up until it has 53 bits or the exponent is
the least. -/
def pack (negative : Bool) (mantissa : Nat) (exponent : Int) : Float :=
  let shift := min (52 - mantissa.log2) (exponent + 1074).toNat
  let mantissa := mantissa * Nat.pow 2 shift
  let magnitude :=
    if mantissa < Nat.pow 2 52 then mantissa
    else (exponent - shift + 1074).toNat * Nat.pow 2 52 + mantissa
  Float.ofBits (if negative then Nat.pow 2 63 + magnitude else magnitude).toUInt64

/-- The double nearest to `± n`. -/
def ofWhole (negative : Bool) (n : Nat) : Float :=
  if negative then -(Float.ofNat n) else Float.ofNat n

/-! ## Whole numbers and remainders -/

/-- The greatest whole number that is not greater than `x`. -/
def floor (x : Float) : Float :=
  match ofFloat x with
  | .finite negative mantissa (.negSucc shift) =>
    let unit := Nat.pow 2 (shift + 1)
    let whole := mantissa / unit
    ofWhole negative (if negative && mantissa % unit != 0 then whole + 1 else whole)
  | _ => x

/-- The whole number nearest to `x`, halves going away from zero. -/
def round (x : Float) : Float :=
  match ofFloat x with
  | .finite negative mantissa (.negSucc shift) =>
    ofWhole negative ((mantissa + Nat.pow 2 shift) / Nat.pow 2 (shift + 1))
  | _ => x

/-- What is left of `x` after the whole multiples of `y` towards zero; it has the sign of `x`. -/
def remainder (x y : Float) : Float :=
  match ofFloat x, ofFloat y with
  | .finite negative m i, .finite _ n j =>
    if n = 0 then 0.0 / 0.0
    else
      let least := min i j
      pack negative
        (m * Nat.pow 2 (i - least).toNat % (n * Nat.pow 2 (j - least).toNat)) least
  | .finite _ _ _, .infinite _ => x
  | _, _ => 0.0 / 0.0

/-- The whole part of `x`: zero for a negative value and for one that is no number, and `2 ^ 1024`
for infinity. -/
def natPart (x : Float) : Nat :=
  match ofFloat x with
  | .finite false mantissa (.ofNat shift) => mantissa * Nat.pow 2 shift
  | .finite false mantissa (.negSucc shift) => mantissa / Nat.pow 2 (shift + 1)
  | .infinite false => Nat.pow 2 1024
  | _ => 0

end Binary64

end ComputedCss
