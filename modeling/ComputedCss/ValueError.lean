import ComputedCss.Fault
import ComputedCss.Number.Scalar
import ComputedCss.Property
import ComputedCss.ValueType

/-!
# Errors about values

Why a value cannot be read, converted or computed. Each cause is a constructor, and
`ValueError.message` is the only place that words them.
-/

namespace ComputedCss

/-- Whether a value has one component or several. -/
inductive ValueKind where
  | scalar
  | list
deriving DecidableEq, Repr

/-- The kind as it is written in messages. -/
def ValueKind.name : ValueKind → String
  | scalar => "scalar"
  | list => "list"

/-- The kind as it is named in descriptions. -/
def ValueKind.label : ValueKind → String
  | scalar => "Scalar"
  | list => "List"

/-- Why a value could not be read, converted or computed. -/
inductive ValueError (ν : Type) where
  /-- A text that starts like a number is none. -/
  | malformedNumber (text : String)
  /-- A text is no value. -/
  | unreadable (text : String) (fault : Fault)
  /-- A percentage waits for the containing block. -/
  | pendingLayout (property : Property) (percentage : ν) (axis : Axis)
  /-- A relative value has not been computed. -/
  | unresolved (type : ValueType)
  /-- An accessor for one kind of value was used on the other. -/
  | kindMismatch (expected : ValueKind)
  /-- A type that is not an absolute length has no pixels. -/
  | unsupportedUnit (type : ValueType)
  /-- A number in one unit cannot be expressed in another. -/
  | unsupportedConversion (source target : ValueType)
  | notNumeric (type : ValueType)
  | notAString (type : ValueType)
  | notAColor (text : String)
  | notACounter (type : ValueType)
  | notARect (type : ValueType)
  /-- The parent style lacks a property that a percentage refers to. -/
  | missingProperty (property : Property)

namespace ValueError

variable {ν : Type} [Scalar ν]

/-- The property, the percentage and the axis of a percentage that layout has to complete. -/
def needsContainingBlock (property : Property) (percentage : ν) (axis : Axis) : String :=
  "'" ++ property.name ++ ": " ++ Scalar.text percentage ++ "%' needs the containing block " ++
    axis.name

/-- The wording of an error. -/
def message : ValueError ν → String
  | malformedNumber text => "'" ++ text ++ "' is not a valid number"
  | unreadable text fault => "cannot parse '" ++ text ++ "': " ++ fault.message
  | pendingLayout property percentage axis => needsContainingBlock property percentage axis
  | unresolved type => "value in '" ++ type.description ++ "' has not been computed yet"
  | kindMismatch expected => "expected a " ++ expected.name ++ " value"
  | unsupportedUnit type => "cannot convert '" ++ type.description ++ "' to pixels"
  | unsupportedConversion source target =>
    "cannot express a '" ++ source.description ++ "' value in '" ++ target.description ++ "'"
  | notNumeric type => "'" ++ type.description ++ "' value has no number"
  | notAString type => "'" ++ type.description ++ "' value is not a string"
  | notAColor text => "'" ++ text ++ "' is not a color"
  | notACounter type => "'" ++ type.description ++ "' value is not a counter"
  | notARect type => "'" ++ type.description ++ "' value is not a rect"
  | missingProperty property => "parent style has no '" ++ property.name ++ "'"

end ValueError

end ComputedCss
