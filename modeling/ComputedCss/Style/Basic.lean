import ComputedCss.ComputedValue.Basic
import ComputedCss.Keyed

/-!
# Styles

A style holds the computed values of one element and the style of its parent. The parent of a style
does not change any more, so the child holds it as a value.

* `Style.lookup?` finds the value of a property, and follows the parents for inherited properties.
-/

namespace ComputedCss

/-- The computed values of an element, in the order in which their properties were first set. -/
structure Style (ν : Type) where
  parent : Option (Style ν)
  properties : List (Property × ComputedValue ν (Style ν))
  config : Config ν

namespace Style

variable {ν : Type}

/-- A computed value that is resolved against styles. -/
abbrev Entry (ν : Type) := ComputedValue ν (Style ν)

/-- The value of a property on the style itself. -/
def own? (style : Style ν) (property : Property) : Option (Entry ν) :=
  style.properties.lookup property

/-- The value of a property: the style's own, or for an inherited property that of the nearest
ancestor that has one. -/
def lookup? (property : Property) : Style ν → Option (Entry ν)
  | ⟨none, properties, _⟩ => properties.lookup property
  | ⟨some parent, properties, _⟩ =>
    match properties.lookup property with
    | some value => some value
    | none => if property.isInherited then parent.lookup? property else none

theorem lookup?_of_own? {style : Style ν} {property : Property} {v : Entry ν}
    (h : style.own? property = some v) : style.lookup? property = some v := by
  obtain ⟨parent, properties, config⟩ := style
  cases parent <;> simp_all [own?, lookup?]

theorem lookup?_of_own?_eq_none {style : Style ν} {property : Property}
    (h : style.own? property = none) :
    style.lookup? property =
      if property.isInherited then style.parent.bind (lookup? property) else none := by
  obtain ⟨parent, properties, config⟩ := style
  change properties.lookup property = none at h
  cases parent with
  | none => rw [lookup?, h]; split <;> rfl
  | some parent => rw [lookup?, h]; rfl

/-- The value of a property of a parent style, which may be missing. -/
def parentLookup? (parent : Option (Style ν)) (property : Property) : Option (Entry ν) :=
  parent.bind (lookup? property)

/-- Sets the value of a property on the style itself. -/
def set (style : Style ν) (property : Property) (value : Entry ν) : Style ν :=
  { style with properties := put property value style.properties }

/-- A style without values whose parent is another style. -/
def childOf (parent : Style ν) : Style ν :=
  ⟨some parent, [], parent.config⟩

/-- The values of the style itself that wait for the containing block. -/
def pending (style : Style ν) : List (Property × Entry ν) :=
  style.properties.filter (·.2.isPending)

variable [Scalar ν]

/-- The style of a root element, which has the configured font size. -/
def root (config : Config ν) (sheet : Sheet ν) : Style ν × Sheet ν :=
  let size := Primitive.numeric config.defaultFontSize .px
  let (declaration, sheet) := sheet.add (.ofPrimitive size)
  let (value, sheet) := ComputedValue.ofDeclaration declaration none config sheet
  (⟨none, [(.fontSize, value)], config⟩, sheet)

end Style

end ComputedCss
