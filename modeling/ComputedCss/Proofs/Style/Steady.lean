import ComputedCss.Proofs.ComputedValue.Coherent
import ComputedCss.Proofs.Style.Handover

/-!
# Steady values

What a style hands down is complete, or it is a percentage that waits for layout. A derivation that
takes it over has nothing to compute, so it writes no declaration but its own.

* `Settles`: what resolving a value that has just been read does.
* `ComputedValue.Steady`: the declaration leaves nothing to compute but a percentage for layout.
* `ComputedValue.Current`: the state is the one that the declaration would be given again.
* `extends_derive`: deriving leaves all declarations alone.
-/

namespace ComputedCss

variable {ν : Type} [Scalar ν]

/-- The declaration of a value leaves nothing to compute, except for a percentage that its property
leaves to layout. -/
def ComputedValue.Steady (property : Property) (sheet : Sheet ν) (v : Style.Entry ν) : Prop :=
  ∀ x type, Computation.ofValue v.config (sheet.get v.declaration).value = .relative x type →
    type = .percentage ∧ ∃ axis, property.layoutAxis? = some axis

/-- The state of a value is the one that its declaration would be given if it were derived again. -/
def ComputedValue.Current (property : Property) (sheet : Sheet ν) (v : Style.Entry ν) : Prop :=
  v.state.isOpen = false ∧
      Computation.ofValue v.config (sheet.get v.declaration).value = v.state ∨
    ∃ x axis, Computation.ofValue v.config (sheet.get v.declaration).value =
        .relative x .percentage ∧
      property.layoutAxis? = some axis ∧ v.state = .pendingLayout x property axis

namespace ComputedValue

variable {v w : Style.Entry ν} {property : Property} {sheet sheet' : Sheet ν} {axis : Axis}

theorem Current.steady (h : v.Current property sheet) : v.Steady property sheet := by
  intro x type hread
  rcases h with ⟨hclosed, hstate⟩ | ⟨y, axis, hpercentage, haxis, -⟩
  · rw [← hstate, hread] at hclosed
    exact absurd hclosed (by simp [Computation.isOpen])
  · rw [hpercentage] at hread
    obtain ⟨rfl, rfl⟩ := Computation.relative.inj hread
    exact ⟨rfl, axis, haxis⟩

theorem steady_of_pixels {pixels : ν}
    (h : sheet.get v.declaration = .ofPrimitive (.numeric pixels .px)) : v.Steady property sheet := by
  intro x type hread
  rw [h] at hread
  exact absurd hread (by simp [Declaration.ofPrimitive, Declaration.ofValue, Computation.ofValue,
    Value.primitive?, ValueType.isRelative, Dimension.isFontRelative, Length.toPixels,
    Length.ofUnit?])

theorem steady_congr (hconfig : w.config = v.config)
    (hget : sheet'.get w.declaration = sheet.get v.declaration) :
    w.Steady property sheet' ↔ v.Steady property sheet := by
  unfold Steady
  rw [hconfig, hget]

theorem current_congr (hget : sheet'.get v.declaration = sheet.get v.declaration) :
    v.Current property sheet' ↔ v.Current property sheet := by
  unfold Current
  rw [hget]

theorem basis_of_layoutAxis? (haxis : property.layoutAxis? = some axis) (config : Config ν)
    (parent : Option (Style ν)) (x : ν) :
    basis config parent property sheet x .percentage = pure (.layout axis) := by
  cases property <;> simp_all [basis, Property.layoutAxis?]

end ComputedValue

namespace Style

variable {v : Entry ν} {property : Property} {sheet base : Sheet ν} {parent : Option (Style ν)}

/-! ## Resolving what has just been read -/

/-- The outcomes of resolving a value that has just been read. -/
inductive Settles (property : Property) (v : Entry ν) (sheet : Sheet ν) :
    Outcome ν (Entry ν) (Resolution ν) → Prop
  | unchanged : v.state.isOpen = false → Settles property v sheet ⟨.ok .unchanged, v, sheet, []⟩
  | failed (x type error notices) : v.state = .relative x type →
    (type = .percentage → property.layoutAxis? = none) →
    Settles property v sheet ⟨.error error, v, sheet, notices⟩
  | resolved (x type pixels notices) : v.state = .relative x type →
    (type = .percentage → property.layoutAxis? = none) →
    Settles property v sheet ⟨.ok (.resolved (v.config.snap pixels)),
      (v.finish pixels sheet).subject, (v.finish pixels sheet).sheet, notices⟩
  | deferred (x axis notices) : v.state = .relative x .percentage →
    property.layoutAxis? = some axis →
    Settles property v sheet ⟨.ok (.pendingLayout property x axis),
      { v with state := .pendingLayout x property axis }, sheet, notices⟩

theorem settles (hv : v.IsRead sheet) (parent : Option (Style ν)) (property : Property) :
    Settles property v sheet (settle parent property v sheet) := by
  have hclosed : v.state.isOpen = false →
      Settles property v sheet (settle parent property v sheet) := by
    intro hclosed
    rw [settle_of_closed hclosed]
    exact .unchanged hclosed
  rcases Computation.ofValue_cases v.config (sheet.get v.declaration).value with
    hread | ⟨-, ⟨x, type, hrelative, hread⟩ | ⟨pixels, hread⟩ | ⟨x, type, -, -, hread⟩⟩
  · exact hclosed (by rw [hv.state, hread]; rfl)
  · have hstate : v.state = .relative x type := hv.state.trans hread
    have hsettle : settle parent property v sheet = v.resolveAgainst parent property sheet :=
      if_pos (show v.state.isOpen = true by rw [hstate]; rfl)
    have hopen : ComputedValue.openNumber? v.state = some (x, type) := by rw [hstate]; rfl
    rw [hsettle]
    unfold ComputedValue.resolveAgainst
    dsimp only
    rw [hv.adopt_eq, hopen]
    dsimp only
    -- A percentage that has an axis is always left to layout.
    have hlayout : (∀ axis, Reading.result (ComputedValue.basis v.config parent property sheet x
        type) ≠ .ok (.layout axis)) → type = .percentage → property.layoutAxis? = none := by
      rintro hnot rfl
      cases haxis : property.layoutAxis? with
      | none => rfl
      | some axis =>
        refine absurd ?_ (hnot axis)
        rw [ComputedValue.basis_of_layoutAxis? haxis]
        rfl
    rcases ComputedValue.basis_cases v.config parent property sheet x hrelative with
      ⟨error, herror, -⟩ | ⟨pixels, hpixels⟩ | ⟨axis, hwaits, rfl, haxis⟩
    · rw [show (ComputedValue.basis _ parent property sheet x type).run.value = _ from herror]
      exact .failed x type error _ hstate (hlayout fun axis h => by simp [herror] at h)
    · rw [show (ComputedValue.basis _ parent property sheet x type).run.value = _ from hpixels]
      exact .resolved x type pixels _ hstate (hlayout fun axis h => by simp [hpixels] at h)
    · rw [show (ComputedValue.basis _ parent property sheet x .percentage).run.value = _ from
        hwaits]
      exact .deferred x axis _ hstate haxis
  · exact hclosed (by rw [hv.state, hread]; rfl)
  · exact hclosed (by rw [hv.state, hread]; rfl)

theorem settle_percentage {x : ν} {axis : Axis} (hv : v.IsRead sheet)
    (hstate : v.state = .relative x .percentage) (haxis : property.layoutAxis? = some axis)
    (parent : Option (Style ν)) :
    ∃ notices, settle parent property v sheet = ⟨.ok (.pendingLayout property x axis),
      { v with state := .pendingLayout x property axis }, sheet, notices⟩ := by
  have hsettles := settles hv parent property
  generalize settle parent property v sheet = settled at hsettles ⊢
  cases hsettles with
  | unchanged hclosed =>
    rw [hstate] at hclosed
    exact absurd hclosed (by simp [Computation.isOpen])
  | failed y type error notices hrelative hlayout =>
    obtain ⟨-, rfl⟩ := Computation.relative.inj (hstate.symm.trans hrelative)
    rw [hlayout rfl] at haxis
    exact absurd haxis (by simp)
  | resolved y type pixels notices hrelative hlayout =>
    obtain ⟨-, rfl⟩ := Computation.relative.inj (hstate.symm.trans hrelative)
    rw [hlayout rfl] at haxis
    exact absurd haxis (by simp)
  | deferred y axis' notices hrelative haxis' =>
    obtain ⟨rfl, -⟩ := Computation.relative.inj (hstate.symm.trans hrelative)
    obtain rfl : axis = axis' := Option.some.inj (haxis.symm.trans haxis')
    exact ⟨notices, rfl⟩

theorem extends_settle (hv : v.IsRead sheet) (hsheet : sheet.Extends base)
    (h : base.declarations.length ≤ v.declaration ∨ v.Steady property sheet)
    (parent : Option (Style ν)) : (settle parent property v sheet).sheet.Extends base := by
  have hsettles := settles hv parent property
  generalize settle parent property v sheet = settled at hsettles ⊢
  cases hsettles with
  | unchanged hclosed => exact hsheet
  | failed x type error notices hstate haxis => exact hsheet
  | deferred x axis notices hstate haxis => exact hsheet
  | resolved x type pixels notices hstate haxis =>
    rcases h with hnew | hsteady
    · exact hsheet.write hnew _
    · obtain ⟨rfl, axis, hlayout⟩ := hsteady x type (hv.state.symm.trans hstate)
      rw [haxis rfl] at hlayout
      exact absurd hlayout (by simp)

theorem steady_settle (hv : v.IsRead sheet) (hdeclared : v.declaration < sheet.declarations.length)
    {resolution : Resolution ν} (hresult : (settle parent property v sheet).result = .ok resolution) :
    (settle parent property v sheet).subject.Steady property
      (settle parent property v sheet).sheet := by
  have hsettles := settles hv parent property
  generalize settle parent property v sheet = settled at hsettles hresult ⊢
  cases hsettles with
  | unchanged hclosed =>
    intro x type hread
    rw [hv.state, hread] at hclosed
    exact absurd hclosed (by simp [Computation.isOpen])
  | failed x type error notices hstate haxis => exact absurd hresult (by simp)
  | resolved x type pixels notices hstate haxis =>
    exact ComputedValue.steady_of_pixels (Sheet.get_write_self hdeclared _)
  | deferred x axis notices hstate haxis =>
    intro y type hread
    have hsame : Computation.relative x .percentage = .relative y type :=
      (hstate.symm.trans hv.state).trans hread
    obtain ⟨rfl, rfl⟩ := Computation.relative.inj hsame
    exact ⟨rfl, axis, haxis⟩

theorem current_settle (hfloor : ∀ x : ν, Scalar.floor (Scalar.floor x) = Scalar.floor x)
    (hv : v.IsRead sheet) (hdeclared : v.declaration < sheet.declarations.length)
    {resolution : Resolution ν} (hresult : (settle parent property v sheet).result = .ok resolution) :
    (settle parent property v sheet).subject.Current property
      (settle parent property v sheet).sheet := by
  have hsettles := settles hv parent property
  generalize settle parent property v sheet = settled at hsettles hresult ⊢
  cases hsettles with
  | unchanged hclosed => exact .inl ⟨hclosed, hv.state.symm⟩
  | failed x type error notices hstate haxis => exact absurd hresult (by simp)
  | resolved x type pixels notices hstate haxis =>
    refine .inl ⟨rfl, ?_⟩
    show Computation.ofValue v.config
      ((sheet.write v.declaration _).get v.declaration).value = _
    rw [Sheet.get_write_self hdeclared]
    show Computation.absolute (v.config.snap (v.config.snap pixels)) ValueType.px = _
    rw [v.config.snap_snap hfloor]
    rfl
  | deferred x axis notices hstate haxis =>
    exact .inr ⟨x, axis, hv.state.symm.trans hstate, haxis, rfl⟩

/-! ## Deriving -/

/-- What a parent hands down stands on the sheet and is steady. -/
def HandsSteady (sheet : Sheet ν) (parent : Option (Style ν)) : Prop :=
  ∀ property w, parentLookup? parent property = some w →
    w.declaration < sheet.declarations.length ∧ w.Steady property sheet

theorem HandsSteady.mono {later : Sheet ν} (h : HandsSteady sheet parent)
    (hlater : later.Extends sheet) : HandsSteady later parent := by
  intro property w hw
  obtain ⟨hdeclared, hsteady⟩ := h property w hw
  exact ⟨Nat.lt_of_lt_of_le hdeclared hlater.length,
    (ComputedValue.steady_congr rfl (hlater.get _ hdeclared)).mpr hsteady⟩

theorem HandsSteady.declares (h : HandsSteady sheet parent) : Declares sheet parent :=
  fun property w hw => (h property w hw).1

variable {style : Style ν} {text : String}

theorem drawnBy_cases (take : Handover ν) (property : Property) (declaration : Declaration ν)
    (style : Style ν) (sheet : Sheet ν) :
    let read := ComputedValue.ofDeclaration (sheet.add declaration).1 style.parent style.config
      (sheet.add declaration).2
    (drawnBy take property declaration style sheet).value = read ∨
    ∃ w, parentLookup? style.parent property = some w ∧
      (drawnBy take property declaration style sheet).value = take w read.2 := by
  rw [drawnBy_eq]
  dsimp only
  split
  · cases parentLookup? style.parent property with
    | none => exact .inl rfl
    | some w => exact .inr ⟨w, rfl, rfl⟩
  · exact .inl rfl

theorem new_or_steady_drawnBy (h : HandsSteady sheet style.parent) (property : Property)
    (declaration : Declaration ν) :
    let drawing := (drawnBy ComputedValue.copy property declaration style sheet).value
    sheet.declarations.length ≤ drawing.1.declaration ∨ drawing.1.Steady property drawing.2 := by
  dsimp only
  rcases drawnBy_cases ComputedValue.copy property declaration style sheet with
    hread | ⟨w, hw, htaken⟩
  · rw [hread]
    exact .inl (Nat.le_refl _)
  · obtain ⟨hdeclared, hsteady⟩ := h property w hw
    rw [htaken]
    refine .inr ((ComputedValue.steady_congr rfl ?_).mpr hsteady)
    exact Sheet.get_add_of_lt hdeclared declaration

theorem extends_deriveBy {take : Handover ν} (hsettled : ∀ declaration,
      (settledBy take property declaration style sheet).sheet.Extends sheet) (text : String) :
    (style.deriveBy take property text sheet).sheet.Extends sheet := by
  have hderives := derivesBy take property text style sheet
  generalize style.deriveBy take property text sheet = outcome at hderives ⊢
  cases hderives with
  | unreadable error notices => exact .refl sheet
  | failed declaration error notices hresult => exact hsettled declaration
  | set declaration resolution notices hresult => exact hsettled declaration

/-- **Deriving leaves all declarations alone.** It adds its own. -/
theorem extends_derive (h : HandsSteady sheet style.parent) (property : Property) (text : String) :
    (style.derive property text sheet).sheet.Extends sheet := by
  rw [← deriveBy_copy]
  refine extends_deriveBy (fun declaration => ?_) text
  have hdraws := draws_drawnBy faithful_copy h.declares property declaration
  exact extends_settle hdraws.isRead hdraws.sheet (new_or_steady_drawnBy h property declaration) _

theorem extends_deriveBy_detach (hdeclared : Declares sheet style.parent) (property : Property)
    (text : String) :
    (style.deriveBy ComputedValue.detach property text sheet).sheet.Extends sheet := by
  refine extends_deriveBy (fun declaration => ?_) text
  have hdraws := draws_drawnBy faithful_detach hdeclared property declaration
  refine extends_settle hdraws.isRead hdraws.sheet (.inl ?_) _
  rcases drawnBy_cases ComputedValue.detach property declaration style sheet with
    hread | ⟨w, -, htaken⟩
  · rw [hread]
    exact Nat.le_refl _
  · rw [htaken]
    show sheet.declarations.length ≤ (sheet.declarations ++ [declaration]).length
    rw [List.length_append]
    exact Nat.le_add_right _ _

theorem sets_derive {P : Property → Sheet ν → Entry ν → Prop} (hdeclared : Declares sheet style.parent)
    (hP : ∀ (v : Entry ν) (sheet : Sheet ν), v.IsRead sheet →
      v.declaration < sheet.declarations.length → ∀ resolution,
      (settle style.parent property v sheet).result = .ok resolution →
        P property (settle style.parent property v sheet).sheet
          (settle style.parent property v sheet).subject) (text : String) :
    (style.derive property text sheet).subject = style ∨
    ∃ v, (style.derive property text sheet).subject = style.set property v ∧
      P property (style.derive property text sheet).sheet v := by
  have hderives := derivesBy ComputedValue.copy property text style sheet
  rw [deriveBy_copy] at hderives
  generalize style.derive property text sheet = outcome at hderives ⊢
  cases hderives with
  | unreadable error notices => exact .inl rfl
  | failed declaration error notices hresult => exact .inl rfl
  | set declaration resolution notices hresult =>
    have hdraws := draws_drawnBy faithful_copy hdeclared property declaration
    exact .inr ⟨_, rfl, hP _ _ hdraws.isRead hdraws.declared resolution hresult⟩

/-- **A child that inherits has the parent's state and text.** -/
theorem derive_of_inherits {value : Value ν} {u : Entry ν} (hparse : Value.parse? text = .ok value)
    (hinherits : (⟨Text.trimmed text, value⟩ : Declaration ν).inherits = true)
    (hdeclared : Declares sheet style.parent) (hu : parentLookup? style.parent property = some u)
    (hcurrent : u.Current property sheet) :
    ∃ resolution v, (style.derive property text sheet).result = .ok resolution ∧
      (style.derive property text sheet).subject = style.set property v ∧
      v.state = u.state ∧
      v.text (style.derive property text sheet).sheet = u.text sheet := by
  have hdraws := draws_drawnBy faithful_copy hdeclared property ⟨Text.trimmed text, value⟩
  rw [← deriveBy_copy, deriveBy_of_ok hparse]
  unfold deriveReadBy settledBy
  dsimp only [Outcome.after]
  generalize (drawnBy ComputedValue.copy property ⟨Text.trimmed text, value⟩ style sheet).value =
    drawing at hdraws ⊢
  obtain ⟨v, later⟩ := drawing
  obtain ⟨hread, -, -, hoffered⟩ := hdraws
  dsimp only at hread hoffered ⊢
  obtain ⟨hget, hconfig⟩ : later.get v.declaration = sheet.get u.declaration ∧
      v.config = u.config := by
    unfold offered at hoffered
    rw [if_pos hinherits, hu] at hoffered
    exact Prod.mk.inj hoffered
  have hstate : v.state = Computation.ofValue u.config (sheet.get u.declaration).value := by
    rw [hread.state, hconfig, hget]
  have htext : later.get v.declaration = sheet.get u.declaration → v.text later = u.text sheet :=
    congrArg Declaration.text
  rcases hcurrent with ⟨hclosed, hsame⟩ | ⟨x, axis, hpercentage, haxis, hpending⟩
  · -- The parent's value is complete, and so is the copy.
    rw [hsame] at hstate
    have hopen : v.requiresComputation = false := by
      unfold ComputedValue.requiresComputation
      rw [hstate, hclosed]
    rw [settle_of_closed hopen]
    exact ⟨.unchanged, v, rfl, rfl, hstate, htext hget⟩
  · -- The parent's value waits for layout, and the copy is left to layout again.
    rw [hpercentage] at hstate
    obtain ⟨notices, hsettle⟩ := settle_percentage hread hstate haxis style.parent
    rw [hsettle]
    exact ⟨_, _, rfl, rfl, hpending.symm, htext hget⟩

end Style

end ComputedCss
