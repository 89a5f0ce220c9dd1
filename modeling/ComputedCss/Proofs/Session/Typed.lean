import ComputedCss.Proofs.ComputedValue.Operations
import ComputedCss.Proofs.Session.Holders

/-!
# States and kinds

What the state of a computed value says about its kind and its type. Unlike coherence this does not
depend on how numbers are rounded.

* `typed_on`: every operation keeps a value typed, over any sheet.
* `typed_of_run`: every value of a run is typed.
-/

namespace ComputedCss

variable {ν : Type} [Scalar ν]

/-- A value with a number was read from a scalar, and what is relative has a relative type. -/
structure ComputedValue.Typed (v : Style.Entry ν) : Prop where
  kind : v.state = .nonNumeric ∨ v.kind = .scalar
  relative : ∀ x type, v.state = .relative x type → type.isRelative = true

namespace ComputedValue

variable {v : Style.Entry ν} {sheet : Sheet ν}

/-! ## Reading -/

theorem IsRead.typed (h : v.IsRead sheet) : v.Typed := by
  obtain ⟨hkind, hstate⟩ := h
  rcases Computation.ofValue_cases v.config (sheet.get v.declaration).value with
    hnone | ⟨hscalar, hread⟩
  · rw [hnone] at hstate
    refine ⟨.inl hstate, fun x type hrelative => ?_⟩
    rw [hstate] at hrelative
    exact absurd hrelative (by simp)
  · refine ⟨.inr (hkind.trans hscalar), fun x type hrelative => ?_⟩
    rw [hrelative] at hstate
    rcases hread with ⟨y, type', htype, hread⟩ | ⟨pixels, hread⟩ | ⟨y, type', -, -, hread⟩
    · rw [hread] at hstate
      obtain ⟨-, rfl⟩ := Computation.relative.inj hstate
      exact htype
    · rw [hread] at hstate
      exact absurd hstate (by simp)
    · rw [hread] at hstate
      exact absurd hstate (by simp)

omit [Scalar ν] in
theorem Typed.scalar (h : v.Typed) (hopen : v.state.isOpen = true) : v.kind = .scalar := by
  apply h.kind.resolve_left
  intro hstate
  rw [hstate] at hopen
  exact absurd hopen Bool.false_ne_true

/-! ## Operations -/

theorem typed_of_pass {outcome : Outcome ν (Style.Entry ν) (Effect ν)} (h : v.Typed)
    (hpass : Pass v sheet outcome) : outcome.subject.Typed := by
  cases hpass with
  | closed | failed => exact h
  | adopted x type y type' effect notices hstate hread =>
    refine ⟨.inr (h.scalar ?_), fun z type'' habsolute => absurd habsolute (by simp)⟩
    rw [hstate]
    rfl
  | finished pixels effect notices hopen =>
    exact ⟨.inr (h.scalar hopen), fun z type'' habsolute => absurd habsolute (by simp [finish])⟩
  | deferred x property axis effect notices hnumber haxis =>
    refine ⟨.inr (h.scalar ?_), fun z type'' hpending => absurd hpending (by simp)⟩
    rw [isOpen_eq_isSome, hnumber]
    rfl

theorem typed_on (h : v.Typed) (operation : Operation ν) (sheet : Sheet ν) :
    (operation.on v sheet).subject.Typed := by
  have hacts := Operation.acts_on operation v sheet
  generalize operation.on v sheet = outcome at hacts ⊢
  cases hacts with
  | failed => exact h
  | passed outcome hoperation hpass => exact typed_of_pass h hpass
  | wrote declaration notices hwrites => exact IsRead.typed ⟨rfl, rfl⟩

theorem invariant_typed : Invariant (ν := ν) Typed where
  made declaration context config sheet :=
    (isRead_ofDeclaration declaration context config sheet).typed
  kept := typed_on

end ComputedValue

theorem Session.typed_of_run (steps : List (Step ν)) {v : Style.Entry ν}
    (h : (empty.run steps).1.Holds v) : v.Typed :=
  ComputedValue.invariant_typed.of_run steps h

end ComputedCss
