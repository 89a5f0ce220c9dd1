import ComputedCss.Value.Classifier
import ComputedCss.Value.Printer

/-!
# The sheet of declarations

A declaration is the text of a value, as last written, with the value that it says. Several holders
may refer to one declaration by its number on the sheet, and a write through one of them is seen by
all. Next to the declarations the sheet keeps the lists of segments that holders have asked for.

* `Sheet.get_write_self`, `Sheet.get_write_of_ne`: a write changes its own declaration only.
* `Sheet.get_add_self`, `Sheet.get_add_of_lt`: a new declaration leaves the others alone.
-/

namespace ComputedCss

/-- A text with the value that it says. -/
structure Declaration (ν : Type) where
  text : String
  value : Value ν

/-- The number of a declaration on its sheet. -/
abbrev DeclarationId := Nat

/-- The number of a place for a list of segments. -/
abbrev SegmentsId := Nat

/-- The declarations in the order in which they were made, and the segments asked for so far. -/
structure Sheet (ν : Type) where
  declarations : List (Declaration ν)
  segments : List (Option (List String))

variable {ν : Type}

namespace Declaration

/-- The keyword `none`, which stands for a declaration that is not on the sheet. -/
def absent : Declaration ν := ⟨"none", .single (.ident "none")⟩

variable [Scalar ν]

/-- A value with its own text. -/
def ofValue (value : Value ν) : Declaration ν := ⟨value.text, value⟩

/-- A component with its own text. -/
def ofPrimitive (primitive : Primitive ν) : Declaration ν := ofValue (.single primitive)

/-- Classifies a text, which is kept as it was written except for the blanks at its ends. -/
def read (text : String) : Reading ν (Declaration ν) := do
  let value ← Value.read text
  pure ⟨Text.trimmed text, value⟩

end Declaration

namespace Sheet

/-- A sheet without declarations. -/
def empty : Sheet ν := ⟨[], []⟩

/-- A declaration by its number. -/
def get (sheet : Sheet ν) (id : DeclarationId) : Declaration ν :=
  sheet.declarations.getD id .absent

/-- Adds a declaration, and gives its number. -/
def add (sheet : Sheet ν) (declaration : Declaration ν) : DeclarationId × Sheet ν :=
  (sheet.declarations.length, { sheet with declarations := sheet.declarations ++ [declaration] })

/-- Replaces a declaration. -/
def write (sheet : Sheet ν) (id : DeclarationId) (declaration : Declaration ν) : Sheet ν :=
  { sheet with declarations := sheet.declarations.set id declaration }

/-- Makes a place for a list of segments. -/
def addSegments (sheet : Sheet ν) : SegmentsId × Sheet ν :=
  (sheet.segments.length, { sheet with segments := sheet.segments ++ [none] })

/-- The list of segments at a place, if it has been asked for. -/
def segments? (sheet : Sheet ν) (id : SegmentsId) : Option (List String) :=
  sheet.segments.getD id none

/-- Keeps a list of segments at its place. -/
def keepSegments (sheet : Sheet ν) (id : SegmentsId) (segments : List String) : Sheet ν :=
  { sheet with segments := sheet.segments.set id (some segments) }

/-! ## Reading after writing -/

theorem get_write_self {sheet : Sheet ν} {id : DeclarationId} (h : id < sheet.declarations.length)
    (declaration : Declaration ν) : (sheet.write id declaration).get id = declaration := by
  simp [get, write, h]

theorem get_write_of_ne {sheet : Sheet ν} {id other : DeclarationId} (h : other ≠ id)
    (declaration : Declaration ν) : (sheet.write id declaration).get other = sheet.get other := by
  simp [get, write, List.getElem?_set_ne (Ne.symm h)]

theorem get_add_self (sheet : Sheet ν) (declaration : Declaration ν) :
    (sheet.add declaration).2.get (sheet.add declaration).1 = declaration := by
  simp [get, add]

theorem get_add_of_lt {sheet : Sheet ν} {id : DeclarationId} (h : id < sheet.declarations.length)
    (declaration : Declaration ν) : (sheet.add declaration).2.get id = sheet.get id := by
  simp [get, add, List.getElem?_append_left h]

end Sheet

end ComputedCss
