import ComputedCss.Text.Quoted

/-!
# Colours

A colour is four bytes. It can be written as three, four, six or eight hexadecimal digits, where
the short forms double each digit, or by a keyword.
-/

namespace ComputedCss

/-- A colour by its red, green, blue and alpha channels. -/
structure Color where
  red : UInt8
  green : UInt8
  blue : UInt8
  alpha : UInt8
deriving DecidableEq, Repr

/-- The value of a hexadecimal digit. -/
def hexValue? (c : Char) : Option Nat :=
  if '0' ≤ c ∧ c ≤ '9' then some (c.toNat - 48)
  else if 'a' ≤ c ∧ c ≤ 'f' then some (c.toNat - 87)
  else if 'A' ≤ c ∧ c ≤ 'F' then some (c.toNat - 55)
  else none

namespace Color

/-- A colour without transparency. -/
def solid (red green blue : UInt8) : Color := ⟨red, green, blue, 255⟩

/-- Black with no opacity. -/
def transparent : Color := ⟨0, 0, 0, 0⟩

/-! ## Hexadecimal notation -/

/-- The byte of two hexadecimal digits. -/
def byteOfDigits (high low : Nat) : UInt8 :=
  (16 * high + low).toUInt8

/-- Reads three, four, six or eight hexadecimal digits after an optional number sign. -/
def ofHex? (text : String) : Option Color :=
  let digits := match text.toList with
    | '#' :: rest => rest
    | digits => digits
  match digits.mapM hexValue? with
  | some [r, g, b] => some (solid (byteOfDigits r r) (byteOfDigits g g) (byteOfDigits b b))
  | some [r, g, b, a] =>
    some ⟨byteOfDigits r r, byteOfDigits g g, byteOfDigits b b, byteOfDigits a a⟩
  | some [r, r', g, g', b, b'] =>
    some (solid (byteOfDigits r r') (byteOfDigits g g') (byteOfDigits b b'))
  | some [r, r', g, g', b, b', a, a'] =>
    some ⟨byteOfDigits r r', byteOfDigits g g', byteOfDigits b b', byteOfDigits a a'⟩
  | _ => none

/-- The two lower-case hexadecimal digits of a byte. -/
def byteDigits (byte : UInt8) : List Char :=
  [Nat.digitChar (byte.toNat / 16), Nat.digitChar (byte.toNat % 16)]

/-- The colour as a number sign and six digits, or eight when it is not opaque. -/
def toHex (color : Color) : String :=
  String.ofList ('#' :: (byteDigits color.red ++ byteDigits color.green ++ byteDigits color.blue ++
    if color.alpha = 255 then [] else byteDigits color.alpha))

/-! ## Keywords -/

/-- The colour keywords. -/
def keywords : List (String × Color) :=
  [("black", solid 0 0 0), ("white", solid 255 255 255), ("transparent", transparent),
    ("red", solid 255 0 0), ("green", solid 0 128 0), ("blue", solid 0 0 255),
    ("yellow", solid 255 255 0), ("gray", solid 128 128 128),
    ("grey", solid 128 128 128), ("aqua", solid 0 255 255), ("cyan", solid 0 255 255),
    ("fuchsia", solid 255 0 255), ("magenta", solid 255 0 255), ("lime", solid 0 255 0),
    ("maroon", solid 128 0 0), ("navy", solid 0 0 128), ("olive", solid 128 128 0),
    ("orange", solid 255 165 0), ("purple", solid 128 0 128),
    ("silver", solid 192 192 192), ("teal", solid 0 128 128)]

/-- The colour that a keyword names, in any case. -/
def ofName? (name : String) : Option Color :=
  keywords.lookup name.toLower

end Color

end ComputedCss
