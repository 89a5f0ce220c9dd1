import ComputedCss.ComputedValue.Resolution
import ComputedCss.Json.Basic
import ComputedCss.Number.Double

/-!
# The JSON form of values

A value is an object with one member, which is named for the kind of the value; a state or an
outcome is an object that names itself in its first member. How a number is written is left to the
caller.
-/

namespace ComputedCss

/-- A text, or null if there is none. -/
def Json.ofText? : Option String → Json
  | some text => .string text
  | none => .null

/-- The name of a type in JSON. -/
def ValueType.jsonName : ValueType → String
  | number => "number"
  | percentage => "percentage"
  | dimension _ => "dimension"
  | unknownDimension _ => "unknown-dimension"
  | string => "string"
  | uri => "uri"
  | ident => "ident"
  | attr => "attr"
  | counter => "counter"
  | rect => "rect"
  | rgbColor => "rgb-color"

/-- A type. -/
def ValueType.toJson (type : ValueType) : Json :=
  let unit := match type with
    | .dimension unit => [("unit", Json.string unit.name)]
    | .unknownDimension unit => [("unit", Json.string unit)]
    | _ => []
  .object (("type", .string type.jsonName) :: unit)

/-- A colour. -/
def Color.toJson (color : Color) : Json :=
  .object [("r", .integer color.red.toNat), ("g", .integer color.green.toNat),
    ("b", .integer color.blue.toNat), ("a", .integer color.alpha.toNat)]

/-- A counter. -/
def Counter.toJson (counter : Counter) : Json :=
  .object [("identifier", .string counter.identifier), ("list_style", .ofText? counter.listStyle),
    ("separator", .ofText? counter.separator)]

/-- A number with its type. -/
def Json.ofNumeric (number : Float → Json) (value : Float) (type : ValueType) : Json :=
  .object [("value", number value), ("unit", type.toJson)]

/-- One side of a rectangle. -/
def RectSide.toJson (number : Float → Json) : RectSide Float → Json
  | auto => .string "auto"
  | length value type => .object [("length", .ofNumeric number value type)]

/-- A rectangle. -/
def Rect.toJson (number : Float → Json) (rect : Rect Float) : Json :=
  .object [("top", rect.top.toJson number), ("right", rect.right.toJson number),
    ("bottom", rect.bottom.toJson number), ("left", rect.left.toJson number)]

/-- A component. -/
def Primitive.toJson (number : Float → Json) : Primitive Float → Json
  | numeric value type => .object [("numeric", .ofNumeric number value type)]
  | string text => .object [("string", .string text)]
  | uri address => .object [("uri", .string address)]
  | ident name => .object [("ident", .string name)]
  | attr name => .object [("attr", .string name)]
  | counter c => .object [("counter", c.toJson)]
  | rect r => .object [("rect", r.toJson number)]
  | color c => .object [("color", c.toJson)]

/-- The name of a separator in JSON. -/
def ListSeparator.jsonName : ListSeparator → String
  | comma => "comma"
  | space => "space"

/-- A value. -/
def Value.toJson (number : Float → Json) : Value Float → Json
  | single primitive => .object [("single", primitive.toJson number)]
  | list items separator =>
    .object [("list", .object [("items", .array (items.map (Primitive.toJson number))),
      ("separator", .string separator.jsonName)])]

/-- A state. -/
def Computation.toJson (number : Float → Json) : Computation Float → Json
  | absolute value type =>
    .object [("state", .string "absolute"), ("value", number value), ("unit", type.toJson)]
  | relative value type =>
    .object [("state", .string "relative"), ("value", number value), ("unit", type.toJson)]
  | pendingLayout percentage property axis =>
    .object [("state", .string "pending-layout"), ("percentage", number percentage),
      ("property", .string property.name), ("axis", .string axis.name)]
  | nonNumeric => .object [("state", .string "non-numeric")]

/-- What a resolution did. -/
def Resolution.toJson (number : Float → Json) : Resolution Float → Json
  | resolved pixels => .object [("outcome", .string "resolved"), ("px", number pixels)]
  | pendingLayout property percentage axis =>
    .object [("outcome", .string "pending-layout"), ("property", .string property.name),
      ("percentage", number percentage), ("axis", .string axis.name)]
  | unchanged => .object [("outcome", .string "unchanged")]

end ComputedCss
