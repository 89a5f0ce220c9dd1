import ComputedCss.Number.Double
import ComputedCss.Proofs.ComputedValue.Operations
import ComputedCss.Proofs.Session.Holders

/-!
# What completes a relative value

A relative value is completed by becoming a length in pixels or a percentage that waits for layout.
The style pass takes over every number that another holder has written, also one that is no length;
the value then has a number, but it is not completed.

* `Computation.ofValue_eq_absolute`: the declarations that say a number.
* `completed_of_pass`: a pass that succeeds completes the value, unless it takes over such a number.
* `completed_iff`: the declarations over which the style pass completes a relative value.
-/

namespace ComputedCss

variable {ν : Type} [Scalar ν]

/-! ## Numbers that are no lengths -/

/-- The declaration says a number that is neither relative nor a length: a plain number, an angle, a
time, a frequency, or a number of an unknown dimension. -/
structure Declaration.SaysNonLength (declaration : Declaration ν) (x : ν) (type : ValueType) :
    Prop where
  value : declaration.value = .single (.numeric x type)
  plain : type.isRelative = false
  noLength : type.isAbsoluteLength = false

theorem Computation.ofValue_of_saysNonLength {declaration : Declaration ν} {x : ν}
    {type : ValueType} (h : declaration.SaysNonLength x type) (config : Config ν) :
    Computation.ofValue config declaration.value = .absolute x type := by
  rw [h.value]
  show (if type.isRelative then Computation.relative x type else _) = _
  rw [if_neg (by simp [h.plain])]
  rcases Length.toPixels_cases x type with ⟨hlength, -⟩ | ⟨-, herror⟩
  · rw [h.noLength] at hlength
    exact absurd hlength Bool.false_ne_true
  · rw [herror]

theorem Computation.ofValue_eq_absolute {declaration : Declaration ν} {config : Config ν} {x : ν}
    {type : ValueType} (h : Computation.ofValue config declaration.value = .absolute x type) :
    type = .px ∨ declaration.SaysNonLength x type := by
  cases hvalue : declaration.value with
  | list items separator =>
    rw [hvalue] at h
    exact absurd h (by simp [Computation.ofValue, Value.primitive?])
  | single p =>
    rw [hvalue] at h
    cases p with
    | numeric y written =>
      change (if written.isRelative then Computation.relative y written else _) = _ at h
      by_cases hrelative : written.isRelative = true
      · rw [if_pos hrelative] at h
        exact absurd h (by simp)
      · rw [if_neg hrelative] at h
        rcases Length.toPixels_cases y written with ⟨-, pixels, hpixels⟩ | ⟨hlength, herror⟩
        · rw [hpixels] at h
          exact .inl (Computation.absolute.inj h).2.symm
        · rw [herror] at h
          obtain ⟨rfl, rfl⟩ := Computation.absolute.inj h
          exact .inr ⟨hvalue, by simpa using hrelative, hlength⟩
    | _ => exact absurd h (by simp [Computation.ofValue, Value.primitive?])

/-! ## Completion -/

namespace ComputedValue

variable {v : Style.Entry ν} {sheet : Sheet ν} {x : ν} {type : ValueType}

/-- The value is a length in pixels or waits for layout. -/
def Completed (v : Style.Entry ν) : Prop :=
  (∃ pixels, v.state = .absolute pixels .px) ∨ v.isPending = true

omit [Scalar ν] in
theorem not_completed_of_saysNonLength {declaration : Declaration ν}
    (h : declaration.SaysNonLength x type) (hstate : v.state = .absolute x type) :
    ¬ v.Completed := by
  rintro (⟨pixels, hpixels⟩ | hpending)
  · rw [hstate] at hpixels
    obtain rfl := (Computation.absolute.inj hpixels).2
    exact absurd h.noLength.symm Bool.false_ne_true
  · rw [isPending, hstate] at hpending
    exact absurd hpending Bool.false_ne_true

theorem completed_of_pass {outcome : Outcome ν (Style.Entry ν) (Effect ν)} {effect : Effect ν}
    (h : Pass v sheet outcome) (hstate : v.state = .relative x type)
    (hresult : outcome.result = .ok effect)
    (hsaid : ∀ y type', ¬ (sheet.get v.declaration).SaysNonLength y type') :
    outcome.subject.Completed := by
  cases h with
  | closed effect notices hclosed =>
    rw [hstate] at hclosed
    exact absurd hclosed.symm Bool.false_ne_true
  | adopted y type' z unit effect notices _ hread =>
    rcases Computation.ofValue_eq_absolute hread with rfl | hother
    · exact .inl ⟨z, rfl⟩
    · exact absurd hother (hsaid z unit)
  | failed error notices => exact absurd hresult (by simp)
  | finished pixels effect notices hopen => exact .inl ⟨v.config.snap pixels, rfl⟩
  | deferred y property axis effect notices hnumber haxis => exact .inr rfl

theorem resolveAgainst_of_saysNonLength {y : ν} {type' : ValueType}
    (hstate : v.state = .relative x type)
    (hsaid : (sheet.get v.declaration).SaysNonLength y type') (parent : Option (Style ν))
    (property : Property) :
    let outcome := v.resolveAgainst parent property sheet
    outcome.result = .ok .unchanged ∧ outcome.subject = { v with state := .absolute y type' } ∧
      outcome.sheet = sheet := by
  have hread := Computation.ofValue_of_saysNonLength hsaid v.config
  unfold resolveAgainst
  dsimp only
  rw [adopt_of_read hstate hread]
  exact ⟨rfl, rfl, rfl⟩

end ComputedValue

open ComputedValue

/-- **When a relative value is completed.** The style pass on a relative value succeeds only by
completing it, whatever the parent and the property are, exactly if its declaration does not say a
number that is no length. Over such a number the pass succeeds without writing anything, and the
value keeps that number in its own unit. -/
theorem completed_iff {v : Style.Entry ν} {x : ν} {type : ValueType}
    (hstate : v.state = .relative x type) (parent : Option (Style ν)) (property : Property)
    (sheet : Sheet ν) :
    let outcome := v.resolveAgainst parent property sheet
    let said := sheet.get v.declaration
    ((∀ resolution, outcome.result = .ok resolution → outcome.subject.Completed) ↔
      ∀ y type', ¬ said.SaysNonLength y type') ∧
    ∀ y type', said.SaysNonLength y type' →
      outcome.result = .ok .unchanged ∧ outcome.subject = { v with state := .absolute y type' } ∧
        outcome.sheet = sheet := by
  intro outcome said
  have hnonLength := fun y type' (hsaid : said.SaysNonLength y type') =>
    resolveAgainst_of_saysNonLength hstate hsaid parent property
  refine ⟨⟨fun hcompleted y type' hsaid => ?_, fun hsaid resolution hresult => ?_⟩, hnonLength⟩
  · obtain ⟨hresult, hsubject, -⟩ := hnonLength y type' hsaid
    refine not_completed_of_saysNonLength hsaid ?_ (hcompleted .unchanged hresult)
    rw [show outcome.subject = _ from hsubject]
  · have hmapped : (outcome.map Effect.resolution).result = .ok (.resolution resolution) := by
      show outcome.result.map Effect.resolution = _
      rw [hresult]
      rfl
    exact completed_of_pass (pass_resolveAgainst parent property v sheet) hstate hmapped hsaid

/-- A value of two font sizes and a copy of it, over which a length has been written. -/
def pixelsWritten : List (Step Float) :=
  [.new "first" "2em" .standard none, .copy "second" (.value "first"),
    .setText (.value "second") "5px"]

/-- The value takes the length over. -/
theorem completed_iff_pixelsWritten :
    let session := (Session.empty.run pixelsWritten).1
    ∃ v, session.Holds v ∧ v.state = .relative 2 (.dimension .em) ∧
      (v.resolveAgainst none .fontSize session.sheet).result = .ok .unchanged ∧
      (v.resolveAgainst none .fontSize session.sheet).subject.Completed := by
  intro session
  have hfirst : ∃ v, session.values.lookup "first" = some v ∧
      v.state = .relative 2 (.dimension .em) ∧
      (session.sheet.get v.declaration).value = .single (.numeric 5 .px) ∧
      (v.resolveAgainst none .fontSize session.sheet).result = .ok .unchanged :=
    ⟨_, by with_unfolding_all rfl, by with_unfolding_all rfl, by with_unfolding_all rfl,
      by with_unfolding_all rfl⟩
  obtain ⟨v, hv, hstate, hsaid, hresult⟩ := hfirst
  obtain ⟨⟨-, hcompleted⟩, -⟩ := completed_iff hstate none .fontSize session.sheet
  refine ⟨v, .value (mem_of_lookup hv), hstate, hresult, hcompleted ?_ _ hresult⟩
  intro y type' hnonLength
  obtain ⟨-, rfl⟩ : 5 = y ∧ ValueType.px = type' := by simpa [hsaid] using hnonLength.value
  exact absurd hnonLength.noLength.symm Bool.false_ne_true

/-- A value of two font sizes and a copy of it, over which an angle has been written. -/
def angleWritten : List (Step Float) :=
  [.new "first" "2em" .standard none, .copy "second" (.value "first"),
    .setText (.value "second") "5deg"]

/-- The style pass succeeds for the value of two font sizes, and makes it an angle. -/
theorem not_completed_angleWritten :
    let session := (Session.empty.run angleWritten).1
    ∃ v, session.read? (.value "first") = some v ∧ v.state = .relative 2 (.dimension .em) ∧
      let outcome := v.resolveAgainst none .fontSize session.sheet
      outcome.result = .ok .unchanged ∧ outcome.subject.state = .absolute 5 (.dimension .deg) ∧
        ¬ outcome.subject.Completed := by
  have hangle : Declaration.SaysNonLength ⟨"5deg", .single (.numeric 5 (.dimension .deg))⟩
      (5 : Float) (.dimension .deg) := ⟨rfl, rfl, rfl⟩
  refine ⟨_, by with_unfolding_all rfl, by with_unfolding_all rfl, by with_unfolding_all rfl,
    by with_unfolding_all rfl, not_completed_of_saysNonLength hangle ?_⟩
  with_unfolding_all rfl

end ComputedCss
