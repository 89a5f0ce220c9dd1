import ComputedCss.Config
import ComputedCss.Sheet

/-!
# Computed values

A computed value refers to a declaration and remembers how far its number has been computed.
Absolute lengths are pixels from the start; percentages and multiples of a font size are relative
until they are resolved; a percentage of the containing block waits for layout.

A computed value has a state of its own next to the declaration, so the two can differ after another
holder has written the declaration.

* `ComputedValue.ofDeclaration` builds a computed value over a declaration.
* `ComputedValue.refresh` reads the declaration again.
-/

namespace ComputedCss

/-- How far a value has been computed. -/
inductive Computation (ν : Type) where
  /-- A number that needs nothing else: a length in pixels, or any other number in its own unit. -/
  | absolute (value : ν) (type : ValueType)
  /-- A percentage or a multiple of a font size that has not been computed. -/
  | relative (value : ν) (type : ValueType)
  /-- A percentage of a dimension of the containing block. -/
  | pendingLayout (percentage : ν) (property : Property) (axis : Axis)
  /-- A value without a number. -/
  | nonNumeric

/-- A value of a property on its way to being computed. The context is the style against which it
is resolved. -/
structure ComputedValue (ν Context : Type) where
  declaration : DeclarationId
  /-- The kind of the value when the declaration was last read. -/
  kind : ValueKind
  /-- The type of the value when the declaration was last read, if it was a scalar. -/
  specifiedType : Option ValueType
  state : Computation ν
  segments : SegmentsId
  context : Option Context
  config : Config ν

variable {ν Context : Type} [Scalar ν]

namespace Computation

/-- The state of a value that has just been read. -/
def ofValue (config : Config ν) (value : Value ν) : Computation ν :=
  match value.primitive? with
  | some (.numeric value type) =>
    if type.isRelative then .relative value type
    else match Length.toPixels value type with
      | .ok pixels => .absolute (config.snap pixels) .px
      | .error _ => .absolute value type
  | _ => .nonNumeric

/-- Whether the state still needs a parent style or a containing block. -/
def isOpen : Computation ν → Bool
  | relative _ _ | pendingLayout _ _ _ => true
  | absolute _ _ | nonNumeric => false

/-- Whether the state waits for the containing block. -/
def isPending : Computation ν → Bool
  | pendingLayout _ _ _ => true
  | _ => false

end Computation

namespace ComputedValue

/-- A computed value over a declaration. -/
def ofDeclaration (declaration : DeclarationId) (context : Option Context) (config : Config ν)
    (sheet : Sheet ν) : ComputedValue ν Context × Sheet ν :=
  let value := (sheet.get declaration).value
  let (segments, sheet) := sheet.addSegments
  ({ declaration, segments, context, config
     kind := value.kind
     specifiedType := value.primitive?.map Primitive.type
     state := .ofValue config value }, sheet)

/-- Another computed value over the same declaration, with the same context and settings. It starts
from what the declaration says now. -/
def copy (v : ComputedValue ν Context) (sheet : Sheet ν) : ComputedValue ν Context × Sheet ν :=
  ofDeclaration v.declaration v.context v.config sheet

/-- The computed value with kind, type and state as the declaration says now. -/
def refresh (v : ComputedValue ν Context) (sheet : Sheet ν) : ComputedValue ν Context :=
  let value := (sheet.get v.declaration).value
  { v with
    kind := value.kind
    specifiedType := value.primitive?.map Primitive.type
    state := .ofValue v.config value }

/-- The text of the declaration. -/
def text (v : ComputedValue ν Context) (sheet : Sheet ν) : String :=
  (sheet.get v.declaration).text

/-- Whether the value was a scalar when the declaration was last read. -/
def isScalar (v : ComputedValue ν Context) : Bool :=
  v.kind == .scalar

/-- Whether the value was a list when the declaration was last read. -/
def isList (v : ComputedValue ν Context) : Bool :=
  v.kind == .list

/-- Whether the value still needs a parent style or a containing block. -/
def requiresComputation (v : ComputedValue ν Context) : Bool :=
  v.state.isOpen

/-- Whether the value waits for the containing block. -/
def isPending (v : ComputedValue ν Context) : Bool :=
  v.state.isPending

end ComputedValue

end ComputedCss
