import ComputedCss.ComputedValue.Writers
import ComputedCss.Proofs.ComputedValue.Passes

/-!
# Coherent computed values

What the state of a computed value can be, whatever other holders have written to its declaration in
the meantime. Every operation keeps a coherent value coherent, over any sheet.

* `coherent_ofDeclaration`, `coherent_refresh`: what has just been read is coherent.
* `coherent_resolveAgainst`, `coherent_bind`: the two passes.
* `coherent_setNumber`, `coherent_setString`, `coherent_setText`: the writers.
-/

namespace ComputedCss

variable {ν : Type} [Scalar ν]

/-- A state that a computed value with some settings can have. -/
def Computation.Coherent (config : Config ν) : Computation ν → Prop
  | .absolute value type =>
    type.isRelative = false ∧
      (type.isAbsoluteLength = true → type = .px ∧ config.snap value = value)
  | .relative _ type => type = .percentage ∨ type = .dimension .em ∨ type = .dimension .ex
  | .pendingLayout _ property axis => property.layoutAxis? = some axis
  | .nonNumeric => True

/-- A value that has a number is a scalar, and its state is a possible one. -/
structure ComputedValue.Coherent {Context : Type} (v : ComputedValue ν Context) : Prop where
  kind : v.state = .nonNumeric ∨ v.kind = .scalar
  state : v.state.Coherent v.config

/-! ## States that are read -/

variable (hfloor : ∀ x : ν, Scalar.floor (Scalar.floor x) = Scalar.floor x)

include hfloor in
theorem Config.snap_snap (config : Config ν) (pixels : ν) :
    config.snap (config.snap pixels) = config.snap pixels := by
  unfold snap
  split_ifs
  · exact hfloor pixels
  · rfl

include hfloor in
theorem Computation.coherent_ofValue (config : Config ν) (value : Value ν) :
    (Computation.ofValue config value).Coherent config := by
  rcases ofValue_cases config value with h | ⟨-, ⟨x, type, hrelative, h⟩ | ⟨pixels, h⟩ |
    ⟨x, type, hrelative, hlength, h⟩⟩
  · rw [h]
    trivial
  · rw [h]
    exact ValueType.isRelative_iff.mp hrelative
  · rw [h]
    exact ⟨rfl, fun _ => ⟨rfl, config.snap_snap hfloor pixels⟩⟩
  · rw [h]
    refine ⟨hrelative, fun hlength' => ?_⟩
    rw [hlength] at hlength'
    exact absurd hlength' Bool.false_ne_true

namespace ComputedValue

variable {Context : Type}

include hfloor in
theorem coherent_ofDeclaration (declaration : DeclarationId) (context : Option Context)
    (config : Config ν) (sheet : Sheet ν) :
    (ofDeclaration declaration context config sheet).1.Coherent := by
  refine ⟨?_, Computation.coherent_ofValue hfloor config (sheet.get declaration).value⟩
  rcases Computation.ofValue_cases config (sheet.get declaration).value with h | ⟨hkind, -⟩
  · exact .inl h
  · exact .inr hkind

include hfloor in
theorem coherent_refresh (v : ComputedValue ν Context) (sheet : Sheet ν) :
    (v.refresh sheet).Coherent := by
  refine ⟨?_, Computation.coherent_ofValue hfloor v.config (sheet.get v.declaration).value⟩
  rcases Computation.ofValue_cases v.config (sheet.get v.declaration).value with h | ⟨hkind, -⟩
  · exact .inl h
  · exact .inr hkind

/-! ## Passes -/

variable {v : Style.Entry ν} {sheet : Sheet ν}

include hfloor in
theorem coherent_adopt (hv : v.Coherent) (sheet : Sheet ν) : (v.adopt sheet).Coherent := by
  rcases adopt_cases v sheet with h | ⟨y, type', x, type, hstate, hread, h⟩
  · rw [h]
    exact hv
  · rw [h]
    have hcoherent := Computation.coherent_ofValue hfloor v.config (sheet.get v.declaration).value
    rw [hread] at hcoherent
    refine ⟨.inr ?_, hcoherent⟩
    rcases hv.kind with hnone | hkind
    · rw [hstate] at hnone
      exact absurd hnone (by simp)
    · exact hkind

include hfloor in
theorem coherent_finish (hkind : v.kind = .scalar) (pixels : ν) (sheet : Sheet ν) :
    (v.finish pixels sheet).subject.Coherent :=
  ⟨.inr hkind, rfl, fun _ => ⟨rfl, v.config.snap_snap hfloor pixels⟩⟩

/-- What a coherent value has left to resolve is a percentage or a multiple of a font size. -/
theorem resolvable_of_coherent (hv : v.Coherent) : v.Resolvable := by
  intro x type h
  have hstate := hv.state
  have hkind := hv.kind
  cases hcase : v.state with
  | absolute y type' =>
    rw [hcase] at h
    exact absurd h (by simp [openNumber?])
  | relative y type' =>
    rw [hcase] at h hstate hkind
    obtain ⟨rfl, rfl⟩ : y = x ∧ type' = type := by simpa [openNumber?] using h
    exact ⟨ValueType.isRelative_iff.mpr hstate, hkind.resolve_left (by simp)⟩
  | pendingLayout y property axis =>
    rw [hcase] at h hkind
    obtain ⟨rfl, rfl⟩ : y = x ∧ ValueType.percentage = type := by simpa [openNumber?] using h
    exact ⟨rfl, hkind.resolve_left (by simp)⟩
  | nonNumeric =>
    rw [hcase] at h
    exact absurd h (by simp [openNumber?])

include hfloor in
theorem coherent_resolveAgainst (hv : v.Coherent) (parent : Option (Style ν)) (property : Property)
    (sheet : Sheet ν) : (v.resolveAgainst parent property sheet).subject.Coherent := by
  have hadopt := coherent_adopt hfloor hv sheet
  have hpass := stylePass_resolveAgainst parent property (resolvable_of_coherent hadopt)
  generalize v.resolveAgainst parent property sheet = outcome at hpass ⊢
  cases hpass with
  | unchanged notices hopen => exact hadopt
  | failed error notices herror => exact hadopt
  | resolved pixels notices hkind => exact coherent_finish hfloor hkind pixels sheet
  | deferred value axis notices haxis hkind => exact ⟨.inr hkind, haxis⟩

include hfloor in
theorem resolveAgainst_ne_unsupportedUnit (hv : v.Coherent) (parent : Option (Style ν))
    (property : Property) (sheet : Sheet ν) (type : ValueType) :
    (v.resolveAgainst parent property sheet).result ≠ .error (.unsupportedUnit type) := by
  intro hresult
  have hpass := stylePass_resolveAgainst parent property
    (resolvable_of_coherent (coherent_adopt hfloor hv sheet))
  generalize v.resolveAgainst parent property sheet = outcome at hpass hresult
  cases hpass with
  | unchanged notices hopen => exact absurd hresult (by simp)
  | failed error notices herror =>
    obtain rfl := Except.error.inj hresult
    rcases herror with ⟨w, -, hnumber⟩ | ⟨-, ⟨-, herror⟩ | ⟨w, -, hnumber⟩⟩
    · exact number_ne_unsupportedUnit type hnumber
    · exact absurd herror (by simp)
    · exact number_ne_unsupportedUnit type hnumber
  | resolved pixels notices hkind => exact absurd hresult (by simp)
  | deferred value axis notices haxis hkind => exact absurd hresult (by simp)

include hfloor in
theorem coherent_bind (hv : v.Coherent) (block : ContainingBlock ν) (sheet : Sheet ν) :
    (v.bind block sheet).subject.Coherent := by
  have hadopt := coherent_adopt hfloor hv sheet
  unfold bind
  dsimp only
  split
  · rename_i percentage property axis hstate
    refine coherent_finish hfloor ?_ _ sheet
    rcases hadopt.kind with hnone | hkind
    · rw [hstate] at hnone
      exact absurd hnone (by simp)
    · exact hkind
  · exact hadopt
  · exact hadopt
  · exact hadopt

/-! ## Writers -/

variable {w : ComputedValue ν Context}

include hfloor in
theorem coherent_setNumber (hw : w.Coherent) (type : ValueType) (value : ν) (sheet : Sheet ν) :
    (w.setNumber type value sheet).subject.Coherent := by
  unfold setNumber
  split
  · exact hw
  · split
    · exact coherent_refresh hfloor w _
    · exact hw

include hfloor in
theorem coherent_setString (hw : w.Coherent) (text : String) (sheet : Sheet ν) :
    (w.setString text sheet).subject.Coherent := by
  unfold setString
  split
  · exact hw
  · split
    · exact coherent_refresh hfloor w _
    · exact hw

include hfloor in
theorem coherent_setText (hw : w.Coherent) (text : String) (sheet : Sheet ν) :
    (w.setText text sheet).subject.Coherent := by
  unfold setText
  dsimp only [Outcome.around]
  split
  · exact coherent_refresh hfloor w _
  · exact hw

end ComputedValue

end ComputedCss
