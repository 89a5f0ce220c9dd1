import ComputedCss.Number.Double
import ComputedCss.Proofs.ComputedValue.Bases
import ComputedCss.Proofs.Style.Dependence

/-!
# The root style in place of a missing parent

Without a parent, a multiple of a font size refers to the configured font size as it is. A root
style has the same font size, but as a computed value, which has lost its fraction when lengths are
whole pixels.

* `ComputedValue.complete`: the rest of the style pass, once it is known what a number amounts to.
* `basis_root`: what a number amounts to below a root style.
* `FallbackAgrees`: the style pass does the same without a parent and below a root style.
* `fallback_agrees_iff`: when this is so for one value, and when for all of them.
* `not_fallbackAgrees_sixteenAndHalf`: twice a font size of 16.5 pixels.
-/

namespace ComputedCss

variable {ν : Type} [Scalar ν]

namespace ComputedValue

variable {v : Style.Entry ν} {sheet sheet' : Sheet ν} {x : ν} {type : ValueType}

/-! ## The rest of the style pass -/

/-- What the style pass does once it is known what the number amounts to. -/
def complete (property : Property) (x : ν) (amount : Except (ValueError ν) (Basis ν))
    (v : Style.Entry ν) (sheet : Sheet ν) : Outcome ν (Style.Entry ν) (Resolution ν) :=
  match amount with
  | .error error => .failed error v sheet
  | .ok (.length pixels) => (v.finish pixels sheet).map .resolved
  | .ok (.layout axis) => v.defer x property axis sheet

theorem resolveAgainst_eq_complete (hopen : openNumber? (v.adopt sheet).state = some (x, type))
    (parent : Option (Style ν)) (property : Property) :
    v.resolveAgainst parent property sheet =
      (complete property x (Reading.result (basis v.config parent property sheet x type))
        (v.adopt sheet) sheet).after (basis v.config parent property sheet x type).run.notices := by
  unfold resolveAgainst Reading.result
  dsimp only
  rw [hopen, config_adopt]
  dsimp only
  cases (basis v.config parent property sheet x type).run.value with
  | error error => simp [complete, Outcome.failed, Outcome.after]
  | ok amount =>
    cases amount with
    | length pixels => rfl
    | layout axis => rfl

theorem adopt_congr (hget : sheet'.get v.declaration = sheet.get v.declaration) :
    v.adopt sheet' = v.adopt sheet := by
  unfold adopt
  rw [hget]

end ComputedValue

/-- Two outcomes of resolving a value agree in the result, the value and a declaration. -/
structure Outcome.Same (id : DeclarationId)
    (outcome outcome' : Outcome ν (Style.Entry ν) (Resolution ν)) : Prop where
  result : outcome'.result = outcome.result
  subject : outcome'.subject = outcome.subject
  declaration : outcome'.sheet.get id = outcome.sheet.get id

namespace ComputedValue

variable {v : Style.Entry ν} {sheet sheet' : Sheet ν} {x pixels pixels' : ν}

/-- A value and a sheet next to another one on which the declaration of the value is the same. -/
structure Twin (v : Style.Entry ν) (sheet sheet' : Sheet ν) : Prop where
  declared : v.declaration < sheet.declarations.length
  declared' : v.declaration < sheet'.declarations.length
  get : sheet'.get v.declaration = sheet.get v.declaration

theorem same_length_iff (h : Twin v sheet sheet') (property : Property) :
    Outcome.Same v.declaration (complete property x (.ok (.length pixels)) v sheet)
        (complete property x (.ok (.length pixels')) v sheet') ↔
      v.config.snap pixels' = v.config.snap pixels := by
  constructor
  · intro hsame
    exact Resolution.resolved.inj (Except.ok.inj hsame.result)
  · intro hsnap
    unfold complete finish
    dsimp only
    rw [hsnap]
    refine ⟨rfl, rfl, ?_⟩
    exact (Sheet.get_write_self h.declared' _).trans (Sheet.get_write_self h.declared _).symm

theorem same_complete (h : Twin v sheet sheet') (property : Property)
    (amount : Except (ValueError ν) (Basis ν)) :
    Outcome.Same v.declaration (complete property x amount v sheet)
      (complete property x amount v sheet') := by
  cases amount with
  | error error => exact ⟨rfl, rfl, h.get⟩
  | ok amount =>
    cases amount with
    | length pixels => exact (same_length_iff h property).mpr rfl
    | layout axis => exact ⟨rfl, rfl, h.get⟩

end ComputedValue

/-! ## Below a root style -/

namespace Style

theorem twin_root {v : Entry ν} {sheet : Sheet ν} (h : v.declaration < sheet.declarations.length)
    (config : Config ν) : ComputedValue.Twin v sheet (root config sheet).2 := by
  refine ⟨h, ?_, Sheet.get_add_of_lt h _⟩
  show v.declaration < (sheet.declarations ++ [_]).length
  rw [List.length_append]
  exact Nat.lt_add_right _ h

theorem base_root (config : Config ν) (sheet : Sheet ν) :
    Base config (some (root config sheet).1) (root config sheet).2 .fontSize
      (config.snap config.defaultFontSize) .px := by
  let size : Declaration ν := .ofPrimitive (.numeric config.defaultFontSize .px)
  let w : Entry ν :=
    (ComputedValue.ofDeclaration (sheet.add size).1 none config (sheet.add size).2).1
  have hsaid : (sheet.add size).2.get (sheet.add size).1 = size := sheet.get_add_self size
  have hkind : w.kind = .scalar := by
    show ((sheet.add size).2.get (sheet.add size).1).value.kind = _
    rw [hsaid]
    rfl
  have hstate : w.state = .absolute (config.snap config.defaultFontSize) .px := by
    show Computation.ofValue config ((sheet.add size).2.get (sheet.add size).1).value = _
    rw [hsaid]
    rfl
  obtain ⟨hnumber, htype⟩ := ComputedValue.number_type_eq_ok.mpr ⟨hkind, hstate⟩
  exact .inherited _ w _ _ rfl hnumber htype

end Style

namespace ComputedValue

variable {property : Property} {type : ValueType}

theorem basis_of_fontSize (hsource : type.source? property = some .fontSize) (config : Config ν)
    (sheet : Sheet ν) (x : ν) :
    Reading.result (basis config none property sheet x type) =
      .ok (.length (type.factor x * config.defaultFontSize)) ∧
    Reading.result (basis config (some (Style.root config sheet).1) property
        (Style.root config sheet).2 x type) =
      .ok (.length (type.factor x * config.snap config.defaultFontSize)) :=
  ⟨(basis_eq_ok_iff hsource).mpr ⟨_, _, .configured rfl, rfl⟩,
    (basis_eq_ok_iff hsource).mpr ⟨_, _, Style.base_root config sheet, rfl⟩⟩

/-- A root style has nothing but a font size, so it is like no parent for any other number. -/
theorem basis_root (hsource : type.source? property ≠ some .fontSize) (config : Config ν)
    (sheet : Sheet ν) (x : ν) :
    basis config (some (Style.root config sheet).1) property (Style.root config sheet).2 x type =
      basis config none property sheet x type := by
  cases type with
  | dimension unit =>
    cases unit with
    | em | ex => exact absurd rfl hsource
    | _ => rfl
  | percentage =>
    cases property with
    | fontSize => exact absurd rfl hsource
    | _ => rfl
  | _ => rfl

end ComputedValue

/-! ## The fallback -/

/-- The style pass does the same to a value without a parent as below a root style with the settings
of the value: the result, the value and the declaration of the value are the same. -/
def FallbackAgrees (property : Property) (v : Style.Entry ν) (sheet : Sheet ν) : Prop :=
  let root := Style.root v.config sheet
  Outcome.Same v.declaration (v.resolveAgainst none property sheet)
    (v.resolveAgainst (some root.1) property root.2)

section

variable {v : Style.Entry ν} {sheet : Sheet ν} {property : Property} {x : ν} {type : ValueType}

open ComputedValue

theorem fallbackAgrees_of_closed (hdeclared : v.declaration < sheet.declarations.length)
    (hopen : openNumber? (v.adopt sheet).state = none) : FallbackAgrees property v sheet := by
  have htwin := Style.twin_root hdeclared v.config
  unfold FallbackAgrees resolveAgainst
  dsimp only
  rw [adopt_congr htwin.get, hopen]
  exact ⟨rfl, rfl, htwin.get⟩

theorem fallbackAgrees_iff_same (hdeclared : v.declaration < sheet.declarations.length)
    (hopen : openNumber? (v.adopt sheet).state = some (x, type)) :
    FallbackAgrees property v sheet ↔ Outcome.Same v.declaration
      (complete property x (Reading.result (basis v.config none property sheet x type))
        (v.adopt sheet) sheet)
      (complete property x (Reading.result (basis v.config (some (Style.root v.config sheet).1)
          property (Style.root v.config sheet).2 x type))
        (v.adopt sheet) (Style.root v.config sheet).2) := by
  have hadopt := adopt_congr (Style.twin_root hdeclared v.config).get
  unfold FallbackAgrees
  dsimp only
  rw [resolveAgainst_eq_complete hopen, resolveAgainst_eq_complete (hadopt ▸ hopen), hadopt]
  exact ⟨fun h => ⟨h.result, h.subject, h.declaration⟩,
    fun h => ⟨h.result, h.subject, h.declaration⟩⟩

theorem fallbackAgrees_iff (hdeclared : v.declaration < sheet.declarations.length)
    (property : Property) : FallbackAgrees property v sheet ↔
      ∀ x type, openNumber? (v.adopt sheet).state = some (x, type) →
        type.source? property = some .fontSize →
        v.config.snap (type.factor x * v.config.snap v.config.defaultFontSize) =
          v.config.snap (type.factor x * v.config.defaultFontSize) := by
  have htwin : Twin (v.adopt sheet) sheet (Style.root v.config sheet).2 :=
    Style.twin_root ((declaration_adopt v sheet).symm ▸ hdeclared) v.config
  cases hopen : openNumber? (v.adopt sheet).state with
  | none =>
    exact iff_of_true (fallbackAgrees_of_closed hdeclared hopen) fun x type h => absurd h (by simp)
  | some number =>
    obtain ⟨x, type⟩ := number
    rw [fallbackAgrees_iff_same hdeclared hopen]
    by_cases hsource : type.source? property = some .fontSize
    · obtain ⟨hnone, hroot⟩ := basis_of_fontSize hsource v.config sheet x
      rw [hnone, hroot, ← declaration_adopt v sheet, same_length_iff htwin, config_adopt]
      constructor
      · intro h x' type' hnumber _
        obtain ⟨rfl, rfl⟩ := Prod.mk.inj (Option.some.inj hnumber)
        exact h
      · exact fun h => h x type rfl hsource
    · rw [basis_root hsource, ← declaration_adopt v sheet]
      refine iff_of_true (same_complete htwin property _) fun x' type' hnumber hother => ?_
      obtain ⟨rfl, rfl⟩ := Prod.mk.inj (Option.some.inj hnumber)
      exact absurd hother hsource

/-! ## All values of a configuration -/

/-- A multiple of a font size, on a sheet of its own. -/
def multiple (config : Config ν) (x : ν) : Style.Entry ν × Sheet ν :=
  ComputedValue.ofDeclaration 0 none config ⟨[.ofPrimitive (.numeric x (.dimension .em))], []⟩

theorem openNumber?_multiple (config : Config ν) (x : ν) :
    openNumber? ((multiple config x).1.adopt (multiple config x).2).state =
      some (x, .dimension .em) := by
  have hread : (multiple config x).1.IsRead (multiple config x).2 :=
    isRead_ofDeclaration _ _ _ _
  rw [hread.adopt_eq]
  rfl

theorem fallbackAgrees_multiple_iff (config : Config ν) (x : ν) (property : Property) :
    FallbackAgrees property (multiple config x).1 (multiple config x).2 ↔
      config.snap (x * config.snap config.defaultFontSize) =
        config.snap (x * config.defaultFontSize) := by
  rw [fallbackAgrees_iff (show 0 < 1 from Nat.one_pos)]
  constructor
  · exact fun h => h x (.dimension .em) (openNumber?_multiple config x) rfl
  · intro h x' type hnumber _
    rw [openNumber?_multiple] at hnumber
    obtain ⟨rfl, rfl⟩ := Prod.mk.inj (Option.some.inj hnumber)
    exact h

end

/-- **The style pass without a parent agrees with that below a root style exactly for the
configurations in which a multiple of the font size is the same length with and without the fraction
of the font size.** For one value it agrees unless the value is such a multiple. So it agrees for
every value when the font size is a whole number of pixels, and when fractions are kept. -/
theorem fallback_agrees_iff (config : Config ν) :
    ((∀ (v : Style.Entry ν) (sheet : Sheet ν) (property : Property), v.config = config →
        v.declaration < sheet.declarations.length → FallbackAgrees property v sheet) ↔
      ∀ x, config.snap (x * config.snap config.defaultFontSize) =
        config.snap (x * config.defaultFontSize)) ∧
    (∀ (v : Style.Entry ν) (sheet : Sheet ν) (property : Property), v.config = config →
      v.declaration < sheet.declarations.length →
      (FallbackAgrees property v sheet ↔
        ∀ x type, ComputedValue.openNumber? (v.adopt sheet).state = some (x, type) →
          type.source? property = some .fontSize →
          config.snap (type.factor x * config.snap config.defaultFontSize) =
            config.snap (type.factor x * config.defaultFontSize))) ∧
    (config.snap config.defaultFontSize = config.defaultFontSize →
      ∀ (v : Style.Entry ν) (sheet : Sheet ν) (property : Property), v.config = config →
        v.declaration < sheet.declarations.length → FallbackAgrees property v sheet) := by
  refine ⟨⟨fun h x => ?_, ?_⟩, ?_, ?_⟩
  · exact (fallbackAgrees_multiple_iff config x .fontSize).mp (h _ _ .fontSize rfl Nat.one_pos)
  · rintro h v sheet property rfl hdeclared
    exact (fallbackAgrees_iff hdeclared property).mpr fun x type _ _ => h (type.factor x)
  · rintro v sheet property rfl hdeclared
    exact fallbackAgrees_iff hdeclared property
  · rintro hwhole v sheet property rfl hdeclared
    exact (fallbackAgrees_iff hdeclared property).mpr fun x type _ _ => by rw [hwhole]

/-- Twice a font size of 16.5 pixels is 33 pixels without a parent, and 32 pixels below a root
style. -/
theorem not_fallbackAgrees_sixteenAndHalf :
    let config : Config Float := ⟨16.5, true, true⟩
    let twice := multiple config 2
    let root := Style.root config twice.2
    (twice.1.resolveAgainst none .fontSize twice.2).result = .ok (.resolved 33) ∧
      (twice.1.resolveAgainst (some root.1) .fontSize root.2).result = .ok (.resolved 32) ∧
      ¬ FallbackAgrees .fontSize twice.1 twice.2 := by
  intro config twice root
  have hopen := openNumber?_multiple config 2
  have htwin : ComputedValue.Twin twice.1 twice.2 root.2 := Style.twin_root Nat.one_pos config
  have h33 : (33 : Float) = config.snap (ValueType.factor 2 (.dimension .em) * 16.5) := by
    decide +kernel
  have h32 : (32 : Float) =
      config.snap (ValueType.factor 2 (.dimension .em) * config.snap 16.5) := by
    decide +kernel
  have hnone : (twice.1.resolveAgainst none .fontSize twice.2).result = .ok (.resolved 33) :=
    (ComputedValue.resolved_iff_base hopen rfl).mpr ⟨_, _, .configured rfl, h33⟩
  have hroot : (twice.1.resolveAgainst (some root.1) .fontSize root.2).result =
      .ok (.resolved 32) := by
    rw [← ComputedValue.adopt_congr htwin.get] at hopen
    exact (ComputedValue.resolved_iff_base hopen rfl).mpr
      ⟨_, _, Style.base_root config twice.2, h32⟩
  have hne : (33 : Float) ≠ 32 := by decide +kernel
  refine ⟨hnone, hroot, fun hsame => hne ?_⟩
  have hresult := hroot.symm.trans hsame.result
  rw [hnone] at hresult
  exact (Resolution.resolved.inj (Except.ok.inj hresult)).symm

end ComputedCss
