import ComputedCss.Text.Caseless

/-!
# Units of dimensions

The fifteen units a dimension can be written in, with their names, and which of them are lengths.

* `Dimension.ofName?_name`: every unit is found by its own name.
-/

namespace ComputedCss

/-- A known unit. -/
inductive Dimension where
  | px | em | ex | inch | cm | mm | pt | pc
  | deg | rad | grad
  | ms | s
  | hz | khz
deriving DecidableEq, Repr

namespace Dimension

/-- All units, lengths first. -/
def all : List Dimension :=
  [px, em, ex, inch, cm, mm, pt, pc, deg, rad, grad, ms, s, hz, khz]

/-- The unit as it is written after a number. -/
def name : Dimension → String
  | px => "px" | em => "em" | ex => "ex" | inch => "in" | cm => "cm" | mm => "mm"
  | pt => "pt" | pc => "pc" | deg => "deg" | rad => "rad" | grad => "grad"
  | ms => "ms" | s => "s" | hz => "hz" | khz => "khz"

/-- The unit as it is written in a description. -/
def label : Dimension → String
  | px => "Px" | em => "Em" | ex => "Ex" | inch => "In" | cm => "Cm" | mm => "Mm"
  | pt => "Pt" | pc => "Pc" | deg => "Deg" | rad => "Rad" | grad => "Grad"
  | ms => "Ms" | s => "S" | hz => "Hz" | khz => "KHz"

/-- The unit with a given name, in any case. -/
def ofName? (name : String) : Option Dimension :=
  all.find? fun unit => Text.caselessEq unit.name name

/-- Whether the unit is a length fixed in relation to the pixel. -/
def isAbsoluteLength : Dimension → Bool
  | px | inch | cm | mm | pt | pc => true
  | _ => false

/-- Whether the unit is a multiple of a font size. -/
def isFontRelative : Dimension → Bool
  | em | ex => true
  | _ => false

theorem mem_all (unit : Dimension) : unit ∈ all := by
  cases unit <;> simp [all]

theorem ofName?_name (unit : Dimension) : ofName? unit.name = some unit := by
  cases unit <;> decide +kernel

end Dimension

end ComputedCss
