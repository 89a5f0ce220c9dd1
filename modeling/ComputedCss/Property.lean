import ComputedCss.Text.Quoted

/-!
# Properties

Thirteen properties have rules of their own for percentages or for inheritance; any other property
is only a name.

* `Property.ofName_name`: a named property is found by its own name.
-/

namespace ComputedCss

/-- A dimension of the containing block. -/
inductive Axis where
  | width
  | height
deriving DecidableEq, Repr

/-- The axis as it is written in messages. -/
def Axis.name : Axis → String
  | width => "width"
  | height => "height"

/-- The axis as it is named in descriptions. -/
def Axis.label : Axis → String
  | width => "Width"
  | height => "Height"

/-- A property. -/
inductive Property where
  | bottom | top | left | right
  | height | maxHeight | minHeight | maxWidth | minWidth
  | textIndent | verticalAlign | fontSize | lineHeight
  /-- A property without rules of its own, by its name in lower case. -/
  | other (name : String)
deriving DecidableEq, Repr

namespace Property

/-- The properties with rules of their own. -/
def named : List Property :=
  [bottom, top, left, right, height, maxHeight, minHeight, maxWidth, minWidth, textIndent,
    verticalAlign, fontSize, lineHeight]

/-- The name of a property. -/
def name : Property → String
  | bottom => "bottom"
  | top => "top"
  | left => "left"
  | right => "right"
  | height => "height"
  | maxHeight => "max-height"
  | minHeight => "min-height"
  | maxWidth => "max-width"
  | minWidth => "min-width"
  | textIndent => "text-indent"
  | verticalAlign => "vertical-align"
  | fontSize => "font-size"
  | lineHeight => "line-height"
  | other name => name

/-- The property as it is named in descriptions. -/
def label : Property → String
  | bottom => "Bottom"
  | top => "Top"
  | left => "Left"
  | right => "Right"
  | height => "Height"
  | maxHeight => "MaxHeight"
  | minHeight => "MinHeight"
  | maxWidth => "MaxWidth"
  | minWidth => "MinWidth"
  | textIndent => "TextIndent"
  | verticalAlign => "VerticalAlign"
  | fontSize => "FontSize"
  | lineHeight => "LineHeight"
  | other name => "Other(" ++ Text.quoted name ++ ")"

/-- The property with a given name, in any case and with blanks around it. -/
def ofName (name : String) : Property :=
  let name := (Text.trimmed name).toLower
  (named.find? fun property => property.name == name).getD (other name)

/-- Whether a child that does not set the property takes the value of its parent. -/
def isInherited : Property → Bool
  | fontSize | lineHeight | textIndent => true
  | _ => false

/-- The dimension of the containing block to which percentages of the property refer, if they do. -/
def layoutAxis? : Property → Option Axis
  | top | bottom | height | minHeight | maxHeight => some .height
  | left | right | minWidth | maxWidth | textIndent => some .width
  | verticalAlign | fontSize | lineHeight | other _ => none

theorem ofName_name (property : Property) (h : property ∈ named) :
    ofName property.name = property := by
  simp only [named, List.mem_cons, List.not_mem_nil, or_false] at h
  rcases h with rfl | rfl | rfl | rfl | rfl | rfl | rfl | rfl | rfl | rfl | rfl | rfl | rfl <;>
    decide +kernel

end Property

end ComputedCss
