import ComputedCss.ComputedValue.Accessors
import ComputedCss.Outcome
import ComputedCss.Style.Basic

/-!
# Resolution

A relative value becomes pixels in two passes. The style pass knows the parent style, and with it
the font size and the line height that a number may be a multiple of. A percentage of the containing
block waits for the layout pass.

* `basis` says what a relative number is a multiple of.
* `resolveAgainst` is the style pass, `bind` the layout pass.
* Both first adopt a length that another holder has written to the declaration in the meantime.
-/

namespace ComputedCss

/-- What a request to resolve a value did. -/
inductive Resolution (ν : Type) where
  /-- The value is now a length in pixels. -/
  | resolved (pixels : ν)
  /-- The value is a percentage that waits for layout. -/
  | pendingLayout (property : Property) (percentage : ν) (axis : Axis)
  /-- There was nothing to resolve. -/
  | unchanged

/-- The size of a containing block in pixels. -/
structure ContainingBlock (ν : Type) where
  width : ν
  height : ν

/-- The size along an axis. -/
def ContainingBlock.dimension {ν : Type} (block : ContainingBlock ν) : Axis → ν
  | .width => block.width
  | .height => block.height

namespace ComputedValue

variable {ν : Type} [Scalar ν]

/-- The number and type that are to be resolved, if there are any. -/
def openNumber? : Computation ν → Option (ν × ValueType)
  | .relative value type => some (value, type)
  | .pendingLayout percentage _ _ => some (percentage, .percentage)
  | .absolute _ _ | .nonNumeric => none

/-- Takes over a length that another holder has written to the declaration. Only a value that is
still relative does; a pending percentage has its own containing block. -/
def adopt (v : Style.Entry ν) (sheet : Sheet ν) : Style.Entry ν :=
  match v.state, Computation.ofValue v.config (sheet.get v.declaration).value with
  | .relative _ _, .absolute value type => { v with state := .absolute value type }
  | _, _ => v

/-! ## The basis of a relative number -/

/-- What a relative number amounts to. -/
inductive Basis (ν : Type) where
  /-- A length in pixels. -/
  | length (pixels : ν)
  /-- A percentage of a dimension of the containing block. -/
  | layout (axis : Axis)

/-- The font size of a parent style, or the configured one with a notice if it has none. -/
def fontSize (config : Config ν) (parent : Option (Style ν)) (sheet : Sheet ν) : Reading ν ν :=
  match Style.parentLookup? parent .fontSize with
  | some size => Reading.ofExcept (size.number sheet)
  | none => do
    Reading.tell (.warning
      ("parent style has no font-size, using " ++ Scalar.text config.defaultFontSize ++ "px"))
    pure config.defaultFontSize

/-- The line height of a parent style. -/
def lineHeight (parent : Option (Style ν)) (sheet : Sheet ν) : Reading ν ν :=
  match Style.parentLookup? parent .lineHeight with
  | some height => Reading.ofExcept (height.number sheet)
  | none => throw (.missingProperty .lineHeight)

/-- What a relative number of a property amounts to. A multiple of a font size and a percentage for
`font-size` refer to the parent's font size, a percentage for `vertical-align` to the parent's line
height, and any other percentage to the containing block or else to one pixel. -/
def basis (config : Config ν) (parent : Option (Style ν)) (property : Property) (sheet : Sheet ν)
    (value : ν) (type : ValueType) : Reading ν (Basis ν) :=
  match type with
  | .dimension .em | .dimension .ex => do
    let size ← fontSize config parent sheet
    pure (.length (value * size))
  | .percentage =>
    match property with
    | .verticalAlign => do
      let height ← lineHeight parent sheet
      pure (.length (value / 100.0 * height))
    | .fontSize => do
      let size ← fontSize config parent sheet
      pure (.length (value / 100.0 * size))
    | _ =>
      match property.layoutAxis? with
      | some axis => pure (.layout axis)
      | none => pure (.length (value / 100.0 * 1.0))
  | type => throw (.unsupportedUnit type)

/-! ## The two passes -/

/-- Makes a length the computed number and writes it to the declaration. -/
def finish (v : Style.Entry ν) (pixels : ν) (sheet : Sheet ν) :
    Outcome ν (Style.Entry ν) ν :=
  let pixels := v.config.snap pixels
  ⟨.ok pixels, { v with state := .absolute pixels .px },
    sheet.write v.declaration (.ofPrimitive (.numeric pixels .px)), []⟩

/-- Leaves a percentage to layout, with a notice. -/
def defer (v : Style.Entry ν) (percentage : ν) (property : Property) (axis : Axis)
    (sheet : Sheet ν) : Outcome ν (Style.Entry ν) (Resolution ν) :=
  ⟨.ok (.pendingLayout property percentage axis),
    { v with state := .pendingLayout percentage property axis }, sheet,
    [.warning (ValueError.needsContainingBlock property percentage axis ++
      ", deferred to layout")]⟩

/-- The style pass: resolves a value of a property against a parent style. -/
def resolveAgainst (parent : Option (Style ν)) (property : Property) (v : Style.Entry ν)
    (sheet : Sheet ν) : Outcome ν (Style.Entry ν) (Resolution ν) :=
  let v := v.adopt sheet
  match openNumber? v.state with
  | none =>
    ⟨.ok .unchanged, v, sheet,
      [.info ("'" ++ property.name ++ ": " ++ v.text sheet ++
        "' is already computed, nothing to resolve")]⟩
  | some (value, type) =>
    let basis := (basis v.config parent property sheet value type).run
    match basis.value with
    | .error error => ⟨.error error, v, sheet, basis.notices⟩
    | .ok (.length pixels) =>
      ((v.finish pixels sheet).map Resolution.resolved).after basis.notices
    | .ok (.layout axis) => (v.defer value property axis sheet).after basis.notices

/-- The style pass against the style that the value was built with. -/
def resolve (property : Property) (v : Style.Entry ν) (sheet : Sheet ν) :
    Outcome ν (Style.Entry ν) (Resolution ν) :=
  v.resolveAgainst v.context property sheet

/-- The layout pass: completes a pending percentage against its containing block. The answer is the
computed number. -/
def bind (block : ContainingBlock ν) (v : Style.Entry ν) (sheet : Sheet ν) :
    Outcome ν (Style.Entry ν) ν :=
  let v := v.adopt sheet
  match v.state with
  | .pendingLayout percentage _ axis =>
    v.finish (percentage / 100.0 * block.dimension axis) sheet
  | .absolute value _ => ⟨.ok value, v, sheet, []⟩
  | .relative _ _ | .nonNumeric => ⟨v.number sheet, v, sheet, []⟩

end ComputedValue

end ComputedCss
