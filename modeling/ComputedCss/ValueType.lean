import ComputedCss.Dimension
import ComputedCss.Text.Quoted

/-!
# Types of component values

Every component value has exactly one type. The numeric types are the number, the percentage and
the dimensions; only their values carry a number.
-/

namespace ComputedCss

/-- The type of a component value. -/
inductive ValueType where
  | number
  | percentage
  /-- A dimension in a known unit. -/
  | dimension (unit : Dimension)
  /-- A dimension in a unit that is kept as it was written, in lower case. -/
  | unknownDimension (unit : String)
  | string
  | uri
  | ident
  | attr
  | counter
  | rect
  | rgbColor
deriving DecidableEq, Repr

namespace ValueType

/-- Pixels, the unit in which every resolved length ends up. -/
abbrev px : ValueType := .dimension .px

/-- Whether values of the type carry a number. -/
def isNumeric : ValueType → Bool
  | number | percentage | dimension _ | unknownDimension _ => true
  | _ => false

/-- Whether a value of the type depends on its surroundings: a percentage or a multiple of a font
size. -/
def isRelative : ValueType → Bool
  | percentage => true
  | dimension unit => unit.isFontRelative
  | _ => false

/-- Whether the type is an absolute length. -/
def isAbsoluteLength : ValueType → Bool
  | dimension unit => unit.isAbsoluteLength
  | _ => false

/-- What follows the number when a value of the type is written. -/
def suffix : ValueType → String
  | percentage => "%"
  | dimension unit => unit.name
  | unknownDimension unit => unit
  | _ => ""

/-- The type as it is named in messages. -/
def description : ValueType → String
  | number => "Number"
  | percentage => "Percentage"
  | dimension unit => "Dimension(" ++ unit.label ++ ")"
  | unknownDimension unit => "UnknownDimension(" ++ Text.quoted unit ++ ")"
  | string => "String"
  | uri => "Uri"
  | ident => "Ident"
  | attr => "Attr"
  | counter => "Counter"
  | rect => "Rect"
  | rgbColor => "RgbColor"

theorem isRelative_iff {type : ValueType} : type.isRelative = true ↔
    type = .percentage ∨ type = .dimension .em ∨ type = .dimension .ex := by
  cases type with
  | dimension unit => cases unit <;> decide
  | _ => simp [isRelative]

theorem isNumeric_of_isRelative {type : ValueType} (h : type.isRelative = true) :
    type.isNumeric = true := by
  cases type <;> simp_all [isRelative, isNumeric]

end ValueType

end ComputedCss
