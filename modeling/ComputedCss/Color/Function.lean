import ComputedCss.Color
import ComputedCss.Number.Scalar
import ComputedCss.Text.Nesting

/-!
# Colour functions

`rgb()`, `rgba()`, `hsl()` and `hsla()` over numbers and percentages that commas, slashes and white
space separate in any way.

* `Hsl.channels` is the conversion from hue, saturation and lightness to red, green and blue, on a
  scale from 0 to 255 and before rounding.
-/

namespace ComputedCss

variable {ν : Type} [Scalar ν]

/-- One argument of a colour function. -/
inductive Channel (ν : Type) where
  | number (value : ν)
  | percentage (value : ν)

namespace Channel

/-- Reads a number or a percentage. -/
def ofText? (text : List Char) : Option (Channel ν) :=
  match Numeral.scan text with
  | some (numeral, []) => some (.number (Scalar.ofNumeral numeral))
  | some (numeral, ['%']) => some (.percentage (Scalar.ofNumeral numeral))
  | _ => none

/-- The arguments between the parentheses of a colour function. -/
def list? (arguments : List Char) : Option (List (Channel ν)) :=
  let isSeparator c := c == ',' || c == '/' || Text.isSpace c
  match Text.piecesTop isSeparator arguments with
  | .ok pieces => pieces.mapM ofText?
  | .error _ => none

/-- The number of a channel, whichever way it is written. -/
def value : Channel ν → ν
  | number v | percentage v => v

/-- A colour channel: a number counts to 255 and a percentage to 100. -/
def toChannelByte : Channel ν → UInt8
  | number v => Scalar.toByte v
  | percentage v => Scalar.toByte (v * 255.0 / 100.0)

/-- An alpha channel: a number counts to 1 and a percentage to 100. -/
def toAlphaByte : Channel ν → UInt8
  | number v => Scalar.toByte (v * 255.0)
  | percentage v => Scalar.toByte (v * 255.0 / 100.0)

/-- A hue in degrees: a number is degrees and a percentage counts full turns to 100. -/
def toDegrees : Channel ν → ν
  | number v => v
  | percentage v => v * 3.6

end Channel

/-! ## Hue, saturation and lightness -/

namespace Hsl

/-- The hue reduced to one turn. -/
def turn (hue : ν) : ν :=
  let r := Scalar.rem hue 360.0
  if Scalar.lt r 0.0 then r + 360.0 else r

/-- Red, green and blue on a scale from 0 to 255, from a hue in degrees and fractions of saturation
and lightness. The turn has six sectors; in each the largest channel has the whole chroma, the next
a part of it, and the least none. -/
def channels (hue saturation lightness : ν) : ν × ν × ν :=
  let s := Scalar.clamp 0.0 1.0 saturation
  let l := Scalar.clamp 0.0 1.0 lightness
  let chroma := (1.0 - Scalar.abs (2.0 * l - 1.0)) * s
  let sector := turn hue / 60.0
  let part := chroma * (1.0 - Scalar.abs (Scalar.rem sector 2.0 - 1.0))
  let (r, g, b) : ν × ν × ν := match Scalar.wholePart sector with
    | 0 => (chroma, part, 0.0)
    | 1 => (part, chroma, 0.0)
    | 2 => (0.0, chroma, part)
    | 3 => (0.0, part, chroma)
    | 4 => (part, 0.0, chroma)
    | 5 => (chroma, 0.0, part)
    | _ => (0.0, 0.0, 0.0)
  let least := l - chroma / 2.0
  ((r + least) * 255.0, (g + least) * 255.0, (b + least) * 255.0)

/-- The bytes of red, green and blue. -/
def toBytes (hue saturation lightness : ν) : UInt8 × UInt8 × UInt8 :=
  let (r, g, b) := channels hue saturation lightness
  (Scalar.toByte r, Scalar.toByte g, Scalar.toByte b)

end Hsl

namespace Color

/-- A colour from its red, green and blue arguments and the byte of its alpha. -/
def ofRgb (red green blue : Channel ν) (alpha : UInt8) : Color :=
  ⟨red.toChannelByte, green.toChannelByte, blue.toChannelByte, alpha⟩

/-- A colour from its hue, saturation and lightness arguments and the byte of its alpha. -/
def ofHsl (hue saturation lightness : Channel ν) (alpha : UInt8) : Color :=
  let (r, g, b) := Hsl.toBytes hue.toDegrees (saturation.value / 100.0) (lightness.value / 100.0)
  ⟨r, g, b, alpha⟩

/-- A colour from three arguments and an optional alpha, which is full when it is left out. -/
def ofChannels? (make : Channel ν → Channel ν → Channel ν → UInt8 → Color) :
    List (Channel ν) → Option Color
  | [x, y, z] => some (make x y z 255)
  | [x, y, z, alpha] => some (make x y z alpha.toAlphaByte)
  | _ => none

/-- The colour of a function call over numbers of type `ν`, given the name and the text between the
parentheses. -/
def ofFunction? (ν : Type) [Scalar ν] (name : String) (arguments : List Char) : Option Color :=
  let name := name.toLower
  if name == "rgb" || name == "rgba" then
    (Channel.list? arguments : Option (List (Channel ν))).bind (ofChannels? ofRgb)
  else if name == "hsl" || name == "hsla" then
    (Channel.list? arguments : Option (List (Channel ν))).bind (ofChannels? ofHsl)
  else none

end Color

end ComputedCss
