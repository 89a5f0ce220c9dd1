import ComputedCss.ComputedValue.Accessors
import ComputedCss.Outcome

/-!
# Writing computed values

Each writer replaces what the declaration says and then reads it again. The declaration is shared,
so every other computed value over it sees the new text and value, but keeps its own state.
-/

namespace ComputedCss

variable {ν Context : Type} [Scalar ν]

/-- Writes a text to a declaration, if it is the text of a value. -/
def Sheet.writeText (sheet : Sheet ν) (id : DeclarationId) (text : String) :
    Outcome ν Unit Unit :=
  let reading := (Declaration.read text).run
  match reading.value with
  | .ok declaration => ⟨.ok (), (), sheet.write id declaration, reading.notices⟩
  | .error error => ⟨.error error, (), sheet, reading.notices⟩

namespace ComputedValue

/-- Writes a component to the declaration and reads it again. -/
def replaceBy (primitive : Primitive ν) (v : ComputedValue ν Context) (sheet : Sheet ν) :
    Outcome ν (ComputedValue ν Context) Unit :=
  let sheet := sheet.write v.declaration (.ofPrimitive primitive)
  ⟨.ok (), v.refresh sheet, sheet, []⟩

/-- Replaces the number of a numeric component, and its type. -/
def setNumber (type : ValueType) (value : ν) (v : ComputedValue ν Context) (sheet : Sheet ν) :
    Outcome ν (ComputedValue ν Context) Unit :=
  match v.primitive sheet with
  | .error error => .failed error v sheet
  | .ok current =>
    if current.type.isNumeric then v.replaceBy (.numeric value type) sheet
    else .failed (.notNumeric current.type) v sheet

/-- Replaces the text of a string, an address, an identifier or an attribute name. -/
def setString (text : String) (v : ComputedValue ν Context) (sheet : Sheet ν) :
    Outcome ν (ComputedValue ν Context) Unit :=
  match v.primitive sheet with
  | .error error => .failed error v sheet
  | .ok current =>
    match current.withString? text with
    | some primitive => v.replaceBy primitive sheet
    | none => .failed (.notAString current.type) v sheet

/-- Replaces the whole value by the one that a text says. -/
def setText (text : String) (v : ComputedValue ν Context) (sheet : Sheet ν) :
    Outcome ν (ComputedValue ν Context) Unit :=
  let written := sheet.writeText v.declaration text
  written.around fun _ =>
    match written.result with
    | .ok _ => v.refresh written.sheet
    | .error _ => v

end ComputedValue

end ComputedCss
