import ComputedCss.Proofs.Style.Dependence
import Mathlib.Data.Option.Defs

/-!
# Values that cannot be told apart

Two values on two sheets are alike when they have one state, one kind and one configuration, over
declarations that say the same. Which declarations these are makes no difference to the style pass.

* `ComputedValue.Alike`: the relation; `Alike.mono`: sheets that extend the two keep it.
* `settle_alike`: values that are alike, under parents that hand down values that are alike, are
  resolved alike.
* `Style.Alike`: styles whose values and ancestors are alike.
-/

namespace ComputedCss

variable {ν : Type}

theorem Sheet.extends_add (sheet : Sheet ν) (declaration : Declaration ν) :
    (sheet.add declaration).2.Extends sheet :=
  ⟨List.length_append ▸ Nat.le_add_right _ _, fun _ hid => Sheet.get_add_of_lt hid declaration⟩

theorem Sheet.declared_add (sheet : Sheet ν) (declaration : Declaration ν) :
    (sheet.add declaration).1 < (sheet.add declaration).2.declarations.length := by
  show sheet.declarations.length < (sheet.declarations ++ [declaration]).length
  rw [List.length_append, List.length_singleton]
  exact Nat.lt_succ_self _

theorem Sheet.Extends.trans {sheet base older : Sheet ν} (h : sheet.Extends base)
    (hbase : base.Extends older) : sheet.Extends older :=
  ⟨Nat.le_trans hbase.length h.length, fun id hid =>
    (h.get id (Nat.lt_of_lt_of_le hid hbase.length)).trans (hbase.get id hid)⟩

namespace ComputedValue

/-- Values on two sheets with one state, kind and configuration, over declarations that say the
same. -/
structure Alike (sheet sheet' : Sheet ν) (v v' : Style.Entry ν) : Prop where
  declared : v.declaration < sheet.declarations.length
  declared' : v'.declaration < sheet'.declarations.length
  state : v'.state = v.state
  kind : v'.kind = v.kind
  config : v'.config = v.config
  get : sheet'.get v'.declaration = sheet.get v.declaration

variable {sheet sheet' later later' : Sheet ν} {v v' : Style.Entry ν}

theorem Alike.refl (h : v.declaration < sheet.declarations.length) : Alike sheet sheet v v :=
  ⟨h, h, rfl, rfl, rfl, rfl⟩

theorem Alike.mono (h : Alike sheet sheet' v v') (hlater : later.Extends sheet)
    (hlater' : later'.Extends sheet') : Alike later later' v v' where
  declared := Nat.lt_of_lt_of_le h.declared hlater.length
  declared' := Nat.lt_of_lt_of_le h.declared' hlater'.length
  state := h.state
  kind := h.kind
  config := h.config
  get := by rw [hlater'.get _ h.declared', hlater.get _ h.declared, h.get]

theorem alike_mono {v v' : Option (Style.Entry ν)} (h : Option.Rel (Alike sheet sheet') v v')
    (hlater : later.Extends sheet) (hlater' : later'.Extends sheet') :
    Option.Rel (Alike later later') v v' := by
  cases h with
  | some hv => exact .some (hv.mono hlater hlater')
  | none => exact .none

theorem Alike.text (h : Alike sheet sheet' v v') : v'.text sheet' = v.text sheet :=
  congrArg Declaration.text h.get

theorem Alike.number (h : Alike sheet sheet' v v') : v'.number sheet' = v.number sheet := by
  have hscalar : v'.requireScalar = v.requireScalar := by
    unfold requireScalar isScalar
    rw [h.kind]
  have hprimitive : v'.primitive sheet' = v.primitive sheet := by
    unfold primitive
    rw [h.get]
  have htype : v'.type sheet' = v.type sheet := by
    unfold type
    rw [hscalar, h.state, hprimitive]
  unfold ComputedValue.number
  rw [hscalar, h.state, htype]

variable [Scalar ν]

theorem IsRead.alike (hv : v.IsRead sheet) (hv' : v'.IsRead sheet')
    (hdeclared : v.declaration < sheet.declarations.length)
    (hdeclared' : v'.declaration < sheet'.declarations.length) (hconfig : v'.config = v.config)
    (hget : sheet'.get v'.declaration = sheet.get v.declaration) : Alike sheet sheet' v v' where
  declared := hdeclared
  declared' := hdeclared'
  state := by rw [hv'.state, hv.state, hconfig, hget]
  kind := by rw [hv'.kind, hv.kind, hget]
  config := hconfig
  get := hget

end ComputedValue

open ComputedValue (Alike)

namespace Style

/-- Two parents hand down values that are alike, or both none. -/
def HandsAlike (sheet sheet' : Sheet ν) (parent parent' : Option (Style ν)) : Prop :=
  ∀ property, Option.Rel (Alike sheet sheet') (parentLookup? parent property)
    (parentLookup? parent' property)

variable {sheet sheet' later later' : Sheet ν} {parent parent' : Option (Style ν)}

theorem HandsAlike.mono (h : HandsAlike sheet sheet' parent parent') (hlater : later.Extends sheet)
    (hlater' : later'.Extends sheet') : HandsAlike later later' parent parent' :=
  fun property => ComputedValue.alike_mono (h property) hlater hlater'

theorem handsAlike_refl (h : Declares sheet parent) : HandsAlike sheet sheet parent parent := by
  intro property
  cases hlookup : parentLookup? parent property with
  | some w => exact .some (.refl (h property w hlookup))
  | none => exact .none

theorem lookup?_alike {style style' : Style ν} {property : Property}
    (hown : Option.Rel (Alike sheet sheet') (style.own? property) (style'.own? property))
    (hparents : Option.Rel (Alike sheet sheet') (parentLookup? style.parent property)
      (parentLookup? style'.parent property)) :
    Option.Rel (Alike sheet sheet') (style.lookup? property) (style'.lookup? property) := by
  cases hv : style.own? property with
  | some v =>
    cases hv' : style'.own? property with
    | some v' =>
      rw [hv, hv'] at hown
      rw [lookup?_of_own? hv, lookup?_of_own? hv']
      exact hown
    | none =>
      rw [hv, hv'] at hown
      cases hown
  | none =>
    cases hv' : style'.own? property with
    | some v' =>
      rw [hv, hv'] at hown
      cases hown
    | none =>
      rw [lookup?_of_own?_eq_none hv, lookup?_of_own?_eq_none hv']
      split
      · exact hparents
      · exact .none

variable [Scalar ν] {v v' : Entry ν} {property : Property}

theorem HandsAlike.basis (h : HandsAlike sheet sheet' parent parent') (config : Config ν)
    (property : Property) (value : ν) (type : ValueType) :
    ComputedValue.basis config parent' property sheet' value type =
      ComputedValue.basis config parent property sheet value type := by
  have hsize : ComputedValue.fontSize config parent' sheet' =
      ComputedValue.fontSize config parent sheet := by
    have hproperty := h .fontSize
    unfold ComputedValue.fontSize
    generalize parentLookup? parent .fontSize = w, parentLookup? parent' .fontSize = w'
      at hproperty ⊢
    cases hproperty with
    | some hw =>
      dsimp only
      rw [hw.number]
    | none => rfl
  have hheight : ComputedValue.lineHeight parent' sheet' =
      ComputedValue.lineHeight parent sheet := by
    have hproperty := h .lineHeight
    unfold ComputedValue.lineHeight
    generalize parentLookup? parent .lineHeight = w, parentLookup? parent' .lineHeight = w'
      at hproperty ⊢
    cases hproperty with
    | some hw =>
      dsimp only
      rw [hw.number]
    | none => rfl
  unfold ComputedValue.basis
  rw [hsize, hheight]

theorem finish_alike (h : Alike sheet sheet' v v') (pixels : ν) :
    (v'.finish pixels sheet').result = (v.finish pixels sheet).result ∧
    Alike (v.finish pixels sheet).sheet (v'.finish pixels sheet').sheet
      (v.finish pixels sheet).subject (v'.finish pixels sheet').subject := by
  unfold ComputedValue.finish
  dsimp only
  rw [h.config]
  refine ⟨rfl, ?_, ?_, rfl, h.kind, rfl, ?_⟩
  · exact Nat.lt_of_lt_of_eq h.declared List.length_set.symm
  · exact Nat.lt_of_lt_of_eq h.declared' List.length_set.symm
  · rw [Sheet.get_write_self h.declared', Sheet.get_write_self h.declared]

/-- **Values that are alike are resolved alike.** -/
theorem settle_alike (hv : v.IsRead sheet) (hv' : v'.IsRead sheet') (h : Alike sheet sheet' v v')
    (hparents : HandsAlike sheet sheet' parent parent') (property : Property) :
    (settle parent' property v' sheet').result = (settle parent property v sheet).result ∧
    Alike (settle parent property v sheet).sheet (settle parent' property v' sheet').sheet
      (settle parent property v sheet).subject (settle parent' property v' sheet').subject := by
  have hrequires : v'.requiresComputation = v.requiresComputation := by
    unfold ComputedValue.requiresComputation
    rw [h.state]
  cases hopen : v.requiresComputation with
  | false =>
    rw [settle_of_closed hopen, settle_of_closed (hrequires.trans hopen)]
    exact ⟨rfl, h⟩
  | true =>
    have hsettle : settle parent property v sheet = v.resolveAgainst parent property sheet :=
      if_pos hopen
    have hsettle' : settle parent' property v' sheet' = v'.resolveAgainst parent' property sheet' :=
      if_pos (hrequires.trans hopen)
    rw [hsettle, hsettle']
    unfold ComputedValue.resolveAgainst
    dsimp only
    rw [hv.adopt_eq, hv'.adopt_eq, h.state]
    cases ComputedValue.openNumber? v.state with
    | none => exact ⟨rfl, h⟩
    | some number =>
      dsimp only
      rw [hparents.basis, h.config]
      cases (ComputedValue.basis v.config parent property sheet number.1 number.2).run.value with
      | error error => exact ⟨rfl, h⟩
      | ok basis =>
        cases basis with
        | length pixels =>
          obtain ⟨hresult, hfinish⟩ := finish_alike h pixels
          exact ⟨congrArg (Except.map Resolution.resolved) hresult, hfinish⟩
        | layout axis =>
          exact ⟨rfl, h.declared, h.declared', rfl, h.kind, h.config, h.get⟩

/-! ## Styles -/

/-- Values of the same properties that are alike. -/
abbrev OwnAlike (sheet sheet' : Sheet ν) (properties properties' : List (Property × Entry ν)) : Prop :=
  ∀ property, Option.Rel (ComputedValue.Alike sheet sheet') (properties.lookup property)
    (properties'.lookup property)

/-- Styles with one configuration and values that are alike, whose parents are alike. -/
inductive Alike (sheet sheet' : Sheet ν) : Style ν → Style ν → Prop
  | root (properties properties' config) : OwnAlike sheet sheet' properties properties' →
    Alike sheet sheet' ⟨none, properties, config⟩ ⟨none, properties', config⟩
  | child (parent parent' properties properties' config) : Alike sheet sheet' parent parent' →
    OwnAlike sheet sheet' properties properties' →
    Alike sheet sheet' ⟨some parent, properties, config⟩ ⟨some parent', properties', config⟩

namespace Alike

variable {sheet sheet' later later' : Sheet ν} {style style' : Style ν} {property : Property}
  {v v' : Entry ν}

omit [Scalar ν]

theorem config (h : Alike sheet sheet' style style') : style'.config = style.config := by
  cases h with
  | root properties properties' config hown => rfl
  | child parent parent' properties properties' config hparent hown => rfl

theorem own? (h : Alike sheet sheet' style style') (property : Property) :
    Option.Rel (ComputedValue.Alike sheet sheet') (style.own? property) (style'.own? property) := by
  cases h with
  | root properties properties' config hown => exact hown property
  | child parent parent' properties properties' config hparent hown => exact hown property

theorem lookup? (h : Alike sheet sheet' style style') (property : Property) :
    Option.Rel (ComputedValue.Alike sheet sheet') (style.lookup? property)
      (style'.lookup? property) := by
  induction h with
  | root properties properties' config hown => exact lookup?_alike (hown property) .none
  | child parent parent' properties properties' config hparent hown ih =>
    exact lookup?_alike (hown property) ih

theorem handsAlike (h : Alike sheet sheet' style style') :
    HandsAlike sheet sheet' style.parent style'.parent := by
  cases h with
  | root properties properties' config hown => exact fun _ => .none
  | child parent parent' properties properties' config hparent hown => exact hparent.lookup?

theorem mono (h : Alike sheet sheet' style style') (hlater : later.Extends sheet)
    (hlater' : later'.Extends sheet') : Alike later later' style style' := by
  induction h with
  | root properties properties' config hown =>
    exact .root _ _ _ fun property => ComputedValue.alike_mono (hown property) hlater hlater'
  | child parent parent' properties properties' config hparent hown ih =>
    exact .child _ _ _ _ _ ih fun property =>
      ComputedValue.alike_mono (hown property) hlater hlater'

theorem set (h : Alike sheet sheet' style style') (property : Property)
    (hv : ComputedValue.Alike sheet sheet' v v') :
    Alike sheet sheet' (style.set property v) (style'.set property v') := by
  have hput : ∀ {properties properties' : List (Property × Entry ν)},
      OwnAlike sheet sheet' properties properties' →
      OwnAlike sheet sheet' (put property v properties) (put property v' properties') := by
    intro properties properties' hown other
    by_cases hother : other = property
    · rw [hother, lookup_put_self, lookup_put_self]
      exact .some hv
    · rw [lookup_put_of_ne hother, lookup_put_of_ne hother]
      exact hown other
  cases h with
  | root properties properties' config hown => exact .root _ _ _ (hput hown)
  | child parent parent' properties properties' config hparent hown =>
    exact .child _ _ _ _ _ hparent (hput hown)

theorem childOf (h : Alike sheet sheet' style style') :
    Alike sheet sheet' style.childOf style'.childOf := by
  unfold Style.childOf
  rw [h.config]
  exact .child style style' [] [] style.config h fun _ => .none

end Alike

theorem alike_root (config : Config ν) (sheet sheet' : Sheet ν) :
    Alike (root config sheet).2 (root config sheet').2 (root config sheet).1
      (root config sheet').1 := by
  let size : Declaration ν := .ofPrimitive (.numeric config.defaultFontSize .px)
  refine .root _ _ config fun property => ?_
  by_cases hproperty : property = .fontSize
  · rw [hproperty]
    exact .some (ComputedValue.IsRead.alike (ComputedValue.isRead_ofDeclaration _ _ _ _)
      (ComputedValue.isRead_ofDeclaration _ _ _ _) (sheet.declared_add size)
      (sheet'.declared_add size) rfl
      ((sheet'.get_add_self size).trans (sheet.get_add_self size).symm))
  · rw [List.lookup_cons, List.lookup_cons, beq_false_of_ne hproperty]
    exact .none

end Style

end ComputedCss
