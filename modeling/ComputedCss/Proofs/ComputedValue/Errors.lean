import ComputedCss.ComputedValue.Resolution
import ComputedCss.Proofs.Reading

/-!
# Errors of computed values

Which errors the views and the passes of a computed value can raise, and what has to be the case.

* `error_of_number`: the errors of the computed number, by state.
* `basis_cases`: resolving a percentage or a multiple of a font size fails only for a number that it
  refers to, or for a line height that is missing.
-/

namespace ComputedCss

variable {ν : Type}

theorem bind_eq_error {α β : Type} {x : Except (ValueError ν) α}
    {f : α → Except (ValueError ν) β} {error : ValueError ν} :
    x >>= f = .error error ↔ x = .error error ∨ ∃ a, x = .ok a ∧ f a = .error error := by
  cases x with
  | error error' =>
    show Except.error error' = Except.error error ↔ _
    simp
  | ok a =>
    show f a = Except.error error ↔ _
    simp

theorem Length.toPixels_cases [Scalar ν] (value : ν) (type : ValueType) :
    (type.isAbsoluteLength = true ∧ ∃ pixels, Length.toPixels value type = .ok pixels) ∨
    (type.isAbsoluteLength = false ∧ Length.toPixels value type = .error (.unsupportedUnit type)) := by
  cases type with
  | dimension unit => cases unit <;> simp [ValueType.isAbsoluteLength, toPixels, ofUnit?,
      Dimension.isAbsoluteLength]
  | _ => exact .inr ⟨rfl, rfl⟩

namespace ComputedValue

section

variable {Context : Type} {v : ComputedValue ν Context} {sheet : Sheet ν} {error : ValueError ν}

/-! ## Views -/

theorem error_of_requireScalar (h : v.requireScalar = .error error) :
    error = .kindMismatch .scalar := by
  unfold requireScalar at h
  split_ifs at h
  exact (Except.error.inj h).symm

theorem error_of_primitive (h : v.primitive sheet = .error error) :
    error = .kindMismatch .scalar := by
  unfold primitive at h
  split at h
  · exact absurd h (by simp)
  · exact (Except.error.inj h).symm

theorem error_of_type (h : v.type sheet = .error error) : error = .kindMismatch .scalar := by
  unfold type at h
  rcases bind_eq_error.mp h with h | ⟨-, -, h⟩
  · exact error_of_requireScalar h
  · split at h
    · exact absurd h (by simp [pure, Except.pure])
    · cases hprimitive : v.primitive sheet with
      | error error' =>
        rw [hprimitive] at h
        obtain rfl : error' = error := Except.error.inj h
        exact error_of_primitive hprimitive
      | ok p =>
        rw [hprimitive] at h
        exact absurd h (by simp [Functor.map, Except.map])

theorem error_of_number (h : v.number sheet = .error error) :
    error = .kindMismatch .scalar ∨
    (∃ x type, v.state = .relative x type ∧ error = .unresolved type) ∨
    (∃ x property axis, v.state = .pendingLayout x property axis ∧
      error = .pendingLayout property x axis) ∨
    (∃ type, v.state = .nonNumeric ∧ error = .notNumeric type) := by
  unfold number at h
  rcases bind_eq_error.mp h with h | ⟨-, -, h⟩
  · exact .inl (error_of_requireScalar h)
  · cases hstate : v.state with
    | absolute x type =>
      rw [hstate] at h
      exact absurd h (by simp [pure, Except.pure])
    | relative x type =>
      rw [hstate] at h
      exact .inr (.inl ⟨x, type, rfl, (Except.error.inj h).symm⟩)
    | pendingLayout x property axis =>
      rw [hstate] at h
      exact .inr (.inr (.inl ⟨x, property, axis, rfl, (Except.error.inj h).symm⟩))
    | nonNumeric =>
      rw [hstate] at h
      rcases bind_eq_error.mp h with h | ⟨type, -, h⟩
      · exact .inl (error_of_type h)
      · exact .inr (.inr (.inr ⟨type, rfl, (Except.error.inj h).symm⟩))

theorem number_congr {other : Sheet ν} (h : other.get v.declaration = sheet.get v.declaration) :
    v.number other = v.number sheet := by
  have hprimitive : v.primitive other = v.primitive sheet := by rw [primitive, primitive, h]
  have htype : v.type other = v.type sheet := by rw [type, type, hprimitive]
  rw [number, number, htype]

theorem number_ne_unsupportedUnit (type : ValueType) :
    v.number sheet ≠ .error (.unsupportedUnit type) := by
  intro h
  rcases error_of_number h with h | ⟨_, _, -, h⟩ | ⟨_, _, _, -, h⟩ | ⟨_, -, h⟩ <;>
    exact absurd h (by simp)

variable [Scalar ν]

theorem exists_fromPixels {target : ValueType} (htarget : target.isAbsoluteLength = true)
    (pixels : ν) : ∃ x, Length.fromPixels pixels target = .ok x := by
  rcases Length.toPixels_cases (1.0 : ν) target with ⟨-, one, hone⟩ | ⟨hlength, -⟩
  · exact ⟨pixels / one, by rw [Length.fromPixels, hone]; rfl⟩
  · rw [htarget] at hlength
    exact absurd hlength.symm Bool.false_ne_true

theorem exists_unsnapped (computed : ν) (written : Option (ν × ValueType)) :
    ∃ x, unsnapped computed written = .ok x := by
  unfold unsnapped
  split
  · rename_i number type
    by_cases hlength : type.isAbsoluteLength = true
    · rw [if_pos hlength]
      rcases Length.toPixels_cases number type with ⟨-, pixels, hpixels⟩ | ⟨hlength', -⟩
      · exact ⟨pixels, hpixels⟩
      · rw [hlength] at hlength'
        exact absurd hlength'.symm Bool.false_ne_true
    · rw [if_neg hlength]
      exact ⟨computed, rfl⟩
  · exact ⟨computed, rfl⟩

theorem numberIn_ne_unsupportedUnit (target type : ValueType) :
    v.numberIn target sheet ≠ .error (.unsupportedUnit type) := by
  intro h
  have hpure : ∀ x : ν, (pure x : Except (ValueError ν) ν) ≠ .error (.unsupportedUnit type) :=
    fun x hx => by simp [pure, Except.pure] at hx
  unfold numberIn at h
  rcases bind_eq_error.mp h with h | ⟨-, -, h⟩
  · exact absurd (error_of_requireScalar h) (by simp)
  · split at h
    · rename_i value type' hstate
      rcases bind_eq_error.mp h with h | ⟨p, -, h⟩
      · exact absurd (error_of_primitive h) (by simp)
      · dsimp only at h
        split at h
        · exact hpure _ h
        · split_ifs at h with hsame hlengths
          · exact hpure _ h
          · obtain ⟨-, htarget⟩ := Bool.and_eq_true_iff.mp hlengths
            rcases bind_eq_error.mp h with h | ⟨pixels, -, h⟩
            · obtain ⟨x, hx⟩ := exists_unsnapped value _
              rw [hx] at h
              exact absurd h (by simp)
            · obtain ⟨x, hx⟩ := exists_fromPixels htarget pixels
              rw [hx] at h
              exact absurd h (by simp)
          · exact absurd (Except.error.inj h) (by simp)
    · split_ifs at h
      · exact hpure _ h
      · exact number_ne_unsupportedUnit type h
    · split_ifs at h
      · exact hpure _ h
      · exact number_ne_unsupportedUnit type h
    · exact number_ne_unsupportedUnit type h

end

/-! ## The style pass -/

section

variable {config : Config ν} {parent : Option (Style ν)} {property : Property} {sheet : Sheet ν}
  {error : ValueError ν}

/-- A number of a parent style that a relative number refers to, and that cannot be read. -/
def ParentError (parent : Option (Style ν)) (property : Property) (sheet : Sheet ν)
    (error : ValueError ν) : Prop :=
  ∃ v, Style.parentLookup? parent property = some v ∧ v.number sheet = .error error

/-- The errors of the style pass come from the parent's font size and line height. -/
def BasisError (parent : Option (Style ν)) (property : Property) (sheet : Sheet ν)
    (error : ValueError ν) : Prop :=
  ParentError parent .fontSize sheet error ∨ property = .verticalAlign ∧
    ((Style.parentLookup? parent .lineHeight = none ∧ error = .missingProperty .lineHeight) ∨
      ParentError parent .lineHeight sheet error)

theorem error_of_lineHeight (h : Reading.result (lineHeight parent sheet) = .error error) :
    (Style.parentLookup? parent .lineHeight = none ∧ error = .missingProperty .lineHeight) ∨
      ParentError parent .lineHeight sheet error := by
  unfold lineHeight at h
  split at h
  · rename_i height hheight
    rw [Reading.result_ofExcept] at h
    exact .inr ⟨height, hheight, h⟩
  · rename_i hnone
    exact .inl ⟨hnone, (Except.error.inj h).symm⟩

theorem length_cases (r : Reading ν ν) (f : ν → ν) :
    (∃ error, r.result = .error error ∧
      Reading.result (r >>= fun size => pure (Basis.length (f size))) = .error error) ∨
    ∃ pixels, Reading.result (r >>= fun size => pure (Basis.length (f size))) =
      .ok (.length pixels) := by
  rw [Reading.result_bind]
  cases r.result with
  | error error => exact .inl ⟨error, rfl, rfl⟩
  | ok size => exact .inr ⟨f size, rfl⟩

variable [Scalar ν]

theorem error_of_fontSize (h : Reading.result (fontSize config parent sheet) = .error error) :
    ParentError parent .fontSize sheet error := by
  unfold fontSize at h
  split at h
  · rename_i size hsize
    rw [Reading.result_ofExcept] at h
    exact ⟨size, hsize, h⟩
  · rw [Reading.result_bind] at h
    exact absurd h (by simp [Reading.tell, Except.bind])

theorem basis_cases (config : Config ν) (parent : Option (Style ν)) (property : Property)
    (sheet : Sheet ν) (value : ν) {type : ValueType} (htype : type.isRelative = true) :
    (∃ error, Reading.result (basis config parent property sheet value type) = .error error ∧
      BasisError parent property sheet error) ∨
    (∃ pixels, Reading.result (basis config parent property sheet value type) =
      .ok (.length pixels)) ∨
    (∃ axis, Reading.result (basis config parent property sheet value type) = .ok (.layout axis) ∧
      type = .percentage ∧ property.layoutAxis? = some axis) := by
  have hsize : ∀ f : ν → ν,
      (∃ error, Reading.result (fontSize config parent sheet >>= fun size =>
        pure (Basis.length (f size))) = .error error ∧ BasisError parent property sheet error) ∨
      ∃ pixels, Reading.result (fontSize config parent sheet >>= fun size =>
        pure (Basis.length (f size))) = .ok (.length pixels) := by
    intro f
    rcases length_cases (fontSize config parent sheet) f with ⟨error, herror, h⟩ | h
    · exact .inl ⟨error, h, .inl (error_of_fontSize herror)⟩
    · exact .inr h
  rcases ValueType.isRelative_iff.mp htype with rfl | rfl | rfl
  · cases property with
    | verticalAlign =>
      rcases length_cases (lineHeight parent sheet) (value / 100.0 * ·) with ⟨error, herror, h⟩ | h
      · exact .inl ⟨error, h, .inr ⟨rfl, error_of_lineHeight herror⟩⟩
      · exact .inr (.inl h)
    | fontSize => exact (hsize (value / 100.0 * ·)).imp_right .inl
    | lineHeight => exact .inr (.inl ⟨_, rfl⟩)
    | other name => exact .inr (.inl ⟨_, rfl⟩)
    | _ => exact .inr (.inr ⟨_, rfl, rfl, rfl⟩)
  · exact (hsize (value * ·)).imp_right .inl
  · exact (hsize (value * ·)).imp_right .inl

end

end ComputedValue

end ComputedCss
