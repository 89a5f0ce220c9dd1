import ComputedCss.ValueError

/-!
# Absolute lengths

A pixel is 0.28 millimetres. Every absolute length is converted to pixels by way of inches,
centimetres and millimetres, and back from pixels by the size of one unit.
-/

namespace ComputedCss

namespace Length

variable {ν : Type} [Scalar ν]

/-- The font size of a root style, in pixels. -/
def defaultFontSize : ν := 16.0

/-- The millimetres of a pixel. -/
def millimetresPerPixel : ν := 0.28

/-- The millimetres of a centimetre. -/
def millimetresPerCentimetre : ν := 10.0

/-- The centimetres of an inch. -/
def centimetresPerInch : ν := 2.54

/-- The points of an inch. -/
def pointsPerInch : ν := 72.0

/-- The points of a pica. -/
def pointsPerPica : ν := 12.0

/-- The pixels of a length in millimetres. -/
def ofMillimetres (value : ν) : ν := value / millimetresPerPixel

/-- The pixels of a length in centimetres. -/
def ofCentimetres (value : ν) : ν := ofMillimetres (value * millimetresPerCentimetre)

/-- The pixels of a length in inches. -/
def ofInches (value : ν) : ν := ofCentimetres (value * centimetresPerInch)

/-- The pixels of a length in a unit, if the unit is an absolute length. -/
def ofUnit? (value : ν) : Dimension → Option ν
  | .px => some value
  | .mm => some (ofMillimetres value)
  | .cm => some (ofCentimetres value)
  | .inch => some (ofInches value)
  | .pt => some (ofInches (value / pointsPerInch))
  | .pc => some (ofInches (value * pointsPerPica / pointsPerInch))
  | .em | .ex | .deg | .rad | .grad | .ms | .s | .hz | .khz => none

/-- The pixels of a value of a type. -/
def toPixels (value : ν) (type : ValueType) : Except (ValueError ν) ν :=
  match type with
  | .dimension unit =>
    match ofUnit? value unit with
    | some pixels => .ok pixels
    | none => .error (.unsupportedUnit type)
  | _ => .error (.unsupportedUnit type)

/-- A length of some pixels, expressed in a type. -/
def fromPixels (pixels : ν) (type : ValueType) : Except (ValueError ν) ν :=
  (toPixels 1.0 type).map (pixels / ·)

/-- A length without its fraction of a pixel, which is dropped towards minus infinity. -/
def snap (pixels : ν) : ν := Scalar.floor pixels

theorem ofUnit?_isSome (value : ν) (unit : Dimension) :
    (ofUnit? value unit).isSome = unit.isAbsoluteLength := by
  cases unit <;> rfl

end Length

end ComputedCss
