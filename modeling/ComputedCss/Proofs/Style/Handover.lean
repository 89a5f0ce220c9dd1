import ComputedCss.Proofs.Style.Likeness

/-!
# Handing values down

For `inherit` a derivation takes over a value of the parent. A copy shares its declaration; it could
as well stand over a declaration of its own that says the same.

* `ComputedValue.detach`: a copy over a declaration of its own.
* `Style.Faithful`: what is taken over says the same.
* `deriveBy_alike`: faithful ways give equal answers, and set values that are alike.
-/

namespace ComputedCss

variable {ν : Type} [Scalar ν]

/-- A copy of a computed value over a declaration of its own, which says what the other says now. -/
def ComputedValue.detach {Context : Type} (v : ComputedValue ν Context) (sheet : Sheet ν) :
    ComputedValue ν Context × Sheet ν :=
  let (id, sheet) := sheet.add (sheet.get v.declaration)
  ofDeclaration id v.context v.config sheet

namespace Style

variable {take take' : Handover ν} {style style' : Style ν} {property : Property} {text : String}
  {sheet sheet' : Sheet ν}

/-! ## Faithful handovers -/

/-- What is taken over shows what the parent's value says, and leaves the declarations alone. -/
structure Faithful (take : Handover ν) : Prop where
  isRead : ∀ w sheet, (take w sheet).1.IsRead (take w sheet).2
  config : ∀ w sheet, (take w sheet).1.config = w.config
  sheet : ∀ w sheet, (take w sheet).2.Extends sheet
  declared : ∀ w sheet, w.declaration < sheet.declarations.length →
    (take w sheet).1.declaration < (take w sheet).2.declarations.length
  get : ∀ w sheet, (take w sheet).2.get (take w sheet).1.declaration = sheet.get w.declaration

theorem faithful_copy : Faithful (ν := ν) ComputedValue.copy where
  isRead _ _ := ComputedValue.isRead_ofDeclaration _ _ _ _
  config _ _ := rfl
  sheet _ _ := ⟨Nat.le_refl _, fun _ _ => rfl⟩
  declared _ _ h := h
  get _ _ := rfl

theorem faithful_detach : Faithful (ν := ν) ComputedValue.detach where
  isRead _ _ := ComputedValue.isRead_ofDeclaration _ _ _ _
  config _ _ := rfl
  sheet w sheet :=
    have hadd := Sheet.extends_add sheet (sheet.get w.declaration)
    ⟨hadd.length, hadd.get⟩
  declared w sheet _ := sheet.declared_add (sheet.get w.declaration)
  get w sheet := sheet.get_add_self (sheet.get w.declaration)

/-- What the value that a derivation resolves says, and its settings. -/
def offered (parent : Option (Style ν)) (config : Config ν) (property : Property)
    (declaration : Declaration ν) (sheet : Sheet ν) : Declaration ν × Config ν :=
  if declaration.inherits then
    match parentLookup? parent property with
    | some w => (sheet.get w.declaration, w.config)
    | none => (declaration, config)
  else (declaration, config)

/-- The value that a derivation resolves shows what is offered. -/
structure Draws (offer : Declaration ν × Config ν) (sheet : Sheet ν) (drawing : Entry ν × Sheet ν) :
    Prop where
  isRead : drawing.1.IsRead drawing.2
  declared : drawing.1.declaration < drawing.2.declarations.length
  sheet : drawing.2.Extends sheet
  offered : (drawing.2.get drawing.1.declaration, drawing.1.config) = offer

theorem draws_drawnBy (htake : Faithful take) (hdeclared : Declares sheet style.parent)
    (property : Property) (declaration : Declaration ν) :
    Draws (offered style.parent style.config property declaration sheet) sheet
      (drawnBy take property declaration style sheet).value := by
  let read := ComputedValue.ofDeclaration (sheet.add declaration).1 style.parent style.config
    (sheet.add declaration).2
  have hread : Draws (declaration, style.config) sheet read :=
    ⟨ComputedValue.isRead_ofDeclaration _ _ _ _, sheet.declared_add declaration,
      ⟨(sheet.extends_add declaration).length, (sheet.extends_add declaration).get⟩,
      Prod.ext (sheet.get_add_self declaration) rfl⟩
  rw [drawnBy_eq]
  unfold offered
  dsimp only
  cases declaration.inherits with
  | false => exact hread
  | true =>
    rw [if_pos rfl, if_pos rfl]
    cases hlookup : parentLookup? style.parent property with
    | none => exact hread
    | some w =>
      have hw : w.declaration < sheet.declarations.length := hdeclared property w hlookup
      have hsame : read.2.get w.declaration = sheet.get w.declaration := hread.sheet.get _ hw
      refine ⟨htake.isRead w read.2, ?_, (htake.sheet w read.2).trans hread.sheet, ?_⟩
      · exact htake.declared w read.2 (Nat.lt_of_lt_of_le hw hread.sheet.length)
      · refine Prod.ext ?_ (htake.config w read.2)
        exact (htake.get w read.2).trans hsame

omit [Scalar ν] in
theorem HandsAlike.offered {parent parent' : Option (Style ν)}
    (h : HandsAlike sheet sheet' parent parent') (config : Config ν) (property : Property)
    (declaration : Declaration ν) : Style.offered parent' config property declaration sheet' =
      Style.offered parent config property declaration sheet := by
  have hproperty := h property
  unfold Style.offered
  generalize parentLookup? parent property = w, parentLookup? parent' property = w' at hproperty ⊢
  cases hproperty with
  | some hw =>
    dsimp only
    rw [hw.get, hw.config]
  | none => rfl

omit [Scalar ν] in
theorem HandsAlike.declares {parent parent' : Option (Style ν)}
    (h : HandsAlike sheet sheet' parent parent') :
    Declares sheet parent ∧ Declares sheet' parent' := by
  constructor
  · intro property w hw
    have hproperty := h property
    rw [hw] at hproperty
    generalize parentLookup? parent' property = w' at hproperty
    cases hproperty with
    | some hw => exact hw.declared
  · intro property w hw
    have hproperty := h property
    rw [hw] at hproperty
    generalize parentLookup? parent property = w' at hproperty
    cases hproperty with
    | some hw => exact hw.declared'

/-! ## Answers and values -/

/-- Two derivations fail alike, or succeed alike and set values that are alike. -/
inductive DerivesAlike (property : Property) (style style' : Style ν) :
    Outcome ν (Style ν) (Resolution ν) → Outcome ν (Style ν) (Resolution ν) → Prop
  | failed (error later later' notices notices') : DerivesAlike property style style'
    ⟨.error error, style, later, notices⟩ ⟨.error error, style', later', notices'⟩
  | set (resolution v v' later later' notices notices') :
    ComputedValue.Alike later later' v v' →
    DerivesAlike property style style' ⟨.ok resolution, style.set property v, later, notices⟩
      ⟨.ok resolution, style'.set property v', later', notices'⟩

/-- **Faithful handovers give equal answers, and set values that are alike.** -/
theorem deriveBy_alike (htake : Faithful take) (htake' : Faithful take')
    (hparents : HandsAlike sheet sheet' style.parent style'.parent)
    (hconfig : style'.config = style.config) (property : Property) (text : String) :
    DerivesAlike property style style' (style.deriveBy take property text sheet)
      (style'.deriveBy take' property text sheet') := by
  cases hparse : (Value.parse? text : Except (ValueError ν) (Value ν)) with
  | error error =>
    rw [deriveBy_of_error hparse, deriveBy_of_error hparse]
    exact .failed error _ _ _ _
  | ok value =>
    let declaration : Declaration ν := ⟨Text.trimmed text, value⟩
    have hdraws := draws_drawnBy htake hparents.declares.1 property declaration
    have hdraws' := draws_drawnBy htake' hparents.declares.2 property declaration
    rw [hparents.offered, hconfig, ← hdraws.offered] at hdraws'
    obtain ⟨hget, hsettings⟩ := Prod.mk.inj hdraws'.offered
    have halike := hdraws.isRead.alike hdraws'.isRead hdraws.declared hdraws'.declared hsettings hget
    obtain ⟨hresult, hsettled⟩ := settle_alike hdraws.isRead hdraws'.isRead halike
      (hparents.mono hdraws.sheet hdraws'.sheet) property
    rw [deriveBy_of_ok hparse, deriveBy_of_ok hparse]
    unfold deriveReadBy settledBy
    dsimp only [Outcome.after]
    rw [hresult]
    cases (settle style.parent property (drawnBy take property declaration style sheet).value.1
      (drawnBy take property declaration style sheet).value.2).result with
    | error error => exact .failed error _ _ _ _
    | ok resolution => exact .set resolution _ _ _ _ _ _ hsettled

end Style

end ComputedCss
