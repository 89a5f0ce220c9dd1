import ComputedCss.ComputedValue.Basic
import ComputedCss.Text.Pieces

/-!
# Reading computed values

The typed views of a computed value. The number comes from its state, the texts, colours, counters
and rectangles from its declaration.
-/

namespace ComputedCss.ComputedValue

variable {ν Context : Type} [Scalar ν]

/-- Fails for a value that was a list when the declaration was last read. -/
def requireScalar (v : ComputedValue ν Context) : Except (ValueError ν) Unit :=
  if v.isScalar then .ok () else .error (.kindMismatch .scalar)

/-- The component that the declaration says, if that is a scalar. -/
def primitive (v : ComputedValue ν Context) (sheet : Sheet ν) :
    Except (ValueError ν) (Primitive ν) :=
  match (sheet.get v.declaration).value.primitive? with
  | some primitive => .ok primitive
  | none => .error (.kindMismatch .scalar)

/-- The type of a scalar: that of its computed number, else that of the declaration. -/
def type (v : ComputedValue ν Context) (sheet : Sheet ν) : Except (ValueError ν) ValueType := do
  v.requireScalar
  match v.state with
  | .absolute _ type => pure type
  | _ => Primitive.type <$> v.primitive sheet

/-- The computed number. -/
def number (v : ComputedValue ν Context) (sheet : Sheet ν) : Except (ValueError ν) ν := do
  v.requireScalar
  match v.state with
  | .absolute value _ => pure value
  | .relative _ type => throw (.unresolved type)
  | .pendingLayout percentage property axis => throw (.pendingLayout property percentage axis)
  | .nonNumeric => throw (.notNumeric (← v.type sheet))

/-- The pixels of an absolute length before it lost its fraction, if the declaration still says an
absolute length, and otherwise the computed ones. -/
def unsnapped (computed : ν) (written : Option (ν × ValueType)) : Except (ValueError ν) ν :=
  match written with
  | some (number, type) =>
    if type.isAbsoluteLength then Length.toPixels number type else .ok computed
  | none => .ok computed

/-- The number in a given type. A number is read as it was written in the type it was written in,
and as computed in the type it was computed to; lengths are converted into each other. -/
def numberIn (v : ComputedValue ν Context) (target : ValueType) (sheet : Sheet ν) :
    Except (ValueError ν) ν := do
  v.requireScalar
  match v.state with
  | .absolute value type =>
    let written := match ← v.primitive sheet with
      | .numeric number type => some (number, type)
      | _ => none
    match written.filter (·.2 == target) with
    | some (number, _) => pure number
    | none =>
      if type == target then pure value
      else if type.isAbsoluteLength && target.isAbsoluteLength then do
        Length.fromPixels (← unsnapped value written) target
      else throw (.unsupportedConversion type target)
  | .relative value type => if type == target then pure value else v.number sheet
  | .pendingLayout percentage _ _ =>
    if target == .percentage then pure percentage else v.number sheet
  | .nonNumeric => v.number sheet

/-- The text of a string, an address, an identifier or an attribute name. -/
def string (v : ComputedValue ν Context) (sheet : Sheet ν) : Except (ValueError ν) String := do
  let primitive ← v.primitive sheet
  match primitive.string? with
  | some text => pure text
  | none => throw (.notAString primitive.type)

/-- The colour of a component: a colour itself, or the one that a keyword names. -/
def color (v : ComputedValue ν Context) (sheet : Sheet ν) : Except (ValueError ν) Color := do
  match ← v.primitive sheet with
  | .color color => pure color
  | .ident name =>
    match Color.ofName? name with
    | some color => pure color
    | none => throw (.notAColor name)
  | other => throw (.notAColor other.text)

/-- The counter. -/
def counter (v : ComputedValue ν Context) (sheet : Sheet ν) : Except (ValueError ν) Counter := do
  match ← v.primitive sheet with
  | .counter counter => pure counter
  | other => throw (.notACounter other.type)

/-- The rectangle. -/
def rect (v : ComputedValue ν Context) (sheet : Sheet ν) : Except (ValueError ν) (Rect ν) := do
  match ← v.primitive sheet with
  | .rect rect => pure rect
  | other => throw (.notARect other.type)

/-- The items of a list. -/
def listItems (v : ComputedValue ν Context) (sheet : Sheet ν) :
    Except (ValueError ν) (List (Primitive ν)) :=
  if v.isList then .ok (sheet.get v.declaration).value.items
  else .error (.kindMismatch .list)

/-- An item of a list by its place, if the list is long enough. -/
def item (v : ComputedValue ν Context) (index : Nat) (sheet : Sheet ν) :
    Except (ValueError ν) (Option (Primitive ν)) :=
  (v.listItems sheet).map (·[index]?)

/-- Whether the text has the keyword `inherit` between commas and blanks. -/
def hasInherit (v : ComputedValue ν Context) (sheet : Sheet ν) : Bool :=
  let isSeparator c := c == ',' || Text.isBlank c
  (Text.pieces isSeparator (v.text sheet).toList).any fun word =>
    Text.caselessEq (String.ofList word) "inherit"

/-! ## Segments -/

/-- What commas separate in a text, with or without the blanks at the ends. -/
def cut (trims : Bool) (text : String) : List String :=
  (Text.pieces (· == ',') text.toList).map fun segment =>
    String.ofList (if trims then Text.trim segment else segment)

/-- The segments of the text. They are cut when they are first asked for, and later writes to the
declaration do not change them. -/
def segmentsOf (v : ComputedValue ν Context) (sheet : Sheet ν) : List String × Sheet ν :=
  match sheet.segments? v.segments with
  | some segments => (segments, sheet)
  | none =>
    let segments := cut v.config.trimsSegments (v.text sheet)
    (segments, sheet.keepSegments v.segments segments)

/-! ## Descriptions -/

/-- The state as it is described, with numbers that show a point. -/
def describeState : Computation ν → String
  | .absolute value type =>
    "Absolute \x7b value: " ++ Scalar.describe value ++ ", unit: " ++ type.description ++ " \x7d"
  | .relative value type =>
    "Relative \x7b value: " ++ Scalar.describe value ++ ", unit: " ++ type.description ++ " \x7d"
  | .pendingLayout percentage property axis =>
    "PendingLayout \x7b percentage: " ++ Scalar.describe percentage ++ ", property: " ++
      property.label ++ ", axis: " ++ axis.label ++ " \x7d"
  | .nonNumeric => "NonNumeric"

/-- The computed value as it is described: its text, kind and state, and whether it has a
context. -/
def describe (v : ComputedValue ν Context) (sheet : Sheet ν) : String :=
  "DerivedValue \x7b raw: SharedValue(" ++ Text.quoted (v.text sheet) ++ "), kind: " ++
    v.kind.label ++ ", state: " ++ describeState v.state ++ ", inherited: " ++
    (if v.context.isSome then "true" else "false") ++ ", .. \x7d"

end ComputedCss.ComputedValue
