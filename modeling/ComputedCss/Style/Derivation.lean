import ComputedCss.ComputedValue.Resolution

/-!
# Setting the properties of a style

* `Style.derive` computes a declaration of a style: it reads the text, takes the parent's value for
  `inherit`, and resolves a relative value against the parent.
* `Style.bind` completes the pending percentages of a style against its containing block.
-/

namespace ComputedCss.Style

variable {ν : Type} [Scalar ν]

/-- The value to be resolved for a declaration: for `inherit` a copy of the parent's value, which
shares its declaration, and otherwise the value itself. -/
def inherit (parent : Option (Style ν)) (property : Property) (v : Entry ν) (sheet : Sheet ν) :
    Noted (Entry ν × Sheet ν) :=
  if v.hasInherit sheet then
    match parentLookup? parent property with
    | some inherited => pure (inherited.copy sheet)
    | none => do
      Noted.tell (.warning ("'" ++ property.name ++ ": inherit' has no parent value to inherit"))
      pure (v, sheet)
  else pure (v, sheet)

/-- Resolves a value that needs it. -/
def settle (parent : Option (Style ν)) (property : Property) (v : Entry ν) (sheet : Sheet ν) :
    Outcome ν (Entry ν) (Resolution ν) :=
  if v.requiresComputation then v.resolveAgainst parent property sheet
  else ⟨.ok .unchanged, v, sheet, []⟩

/-- Computes a declaration that has been read, and sets the property. -/
def deriveRead (property : Property) (declaration : Declaration ν) (style : Style ν)
    (sheet : Sheet ν) : Outcome ν (Style ν) (Resolution ν) :=
  let (id, sheet) := sheet.add declaration
  let (v, sheet) := ComputedValue.ofDeclaration id style.parent style.config sheet
  let inherited := inherit style.parent property v sheet
  let (v, sheet) := inherited.value
  let settled := (settle style.parent property v sheet).after inherited.notices
  settled.around fun v =>
    match settled.result with
    | .ok _ => style.set property v
    | .error _ => style

/-- Computes the declaration of a property and sets it. The style stays as it is when the text is no
value or cannot be resolved. -/
def derive (property : Property) (text : String) (style : Style ν) (sheet : Sheet ν) :
    Outcome ν (Style ν) (Resolution ν) :=
  let reading := (Declaration.read text).run
  match reading.value with
  | .error error => (Outcome.failed error style sheet).after reading.notices
  | .ok declaration => (deriveRead property declaration style sheet).after reading.notices

/-- Completes the pending percentages among some values, one after the other, and counts them. -/
def bindEach (block : ContainingBlock ν) :
    List (Property × Entry ν) → Sheet ν → Outcome ν (List (Property × Entry ν)) Nat
  | [], sheet => ⟨.ok 0, [], sheet, []⟩
  | (property, v) :: rest, sheet =>
    if v.isPending then
      let bound := v.bind block sheet
      match bound.result with
      | .error error =>
        ⟨.error error, (property, bound.subject) :: rest, bound.sheet, bound.notices⟩
      | .ok _ =>
        (((bindEach block rest bound.sheet).map (· + 1)).around
          ((property, bound.subject) :: ·)).after bound.notices
    else (bindEach block rest sheet).around ((property, v) :: ·)

/-- Completes the pending percentages of a style against its containing block, and counts them. -/
def bind (block : ContainingBlock ν) (style : Style ν) (sheet : Sheet ν) :
    Outcome ν (Style ν) Nat :=
  (bindEach block style.properties sheet).around fun properties => { style with properties }

end ComputedCss.Style
