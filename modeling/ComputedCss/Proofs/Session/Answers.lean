import ComputedCss.Number.Exact
import ComputedCss.Proofs.Session.Declared
import ComputedCss.Proofs.Style.Answers

/-!
# Derivations and what they set

A derivation answers what became of the value that it set. The value is read from the text, or copied
from the parent over a declaration that many may share; whichever it is, it shows what was answered.

* `ComputedValue.Shows`: a value of a property shows a resolution.
* `shows_of_agrees`: what agrees with its resolution shows it.
* `derived_as_answered`: a derivation that succeeds sets a value that shows its answer.
-/

namespace ComputedCss

variable {ν : Type} [Scalar ν]

deriving instance DecidableEq for Resolution

omit [Scalar ν] in
theorem eq_ok_of_toOption {α : Type} {x : Except (ValueError ν) α} {a : α}
    (h : x.toOption = some a) : x = .ok a := by
  cases x with
  | error error => exact absurd h (by simp [Except.toOption])
  | ok b => exact congrArg Except.ok (Option.some.inj h)

/-- The value of a property shows a resolution: the pixels in its state and in its text, the same
percentage waiting for the same axis, or that nothing is left to compute. -/
def ComputedValue.Shows (property : Property) (sheet : Sheet ν) (v : Style.Entry ν) :
    Resolution ν → Prop
  | .resolved pixels =>
    v.state = .absolute pixels .px ∧ v.text sheet = Scalar.text pixels ++ "px"
  | .pendingLayout pending percentage axis =>
    pending = property ∧ v.state = .pendingLayout percentage property axis
  | .unchanged => v.requiresComputation = false

variable {sheet : Sheet ν} {v : Style.Entry ν} {resolution : Resolution ν} {property : Property}

theorem shows_of_agrees (h : Agrees sheet v resolution) (hstands : v.state.Stands property) :
    v.Shows property sheet resolution := by
  cases h with
  | resolved pixels hkind hstate hwritten =>
    refine ⟨hstate, ?_⟩
    show (sheet.get v.declaration).text = _
    rw [hwritten]
    rfl
  | pendingLayout pending percentage axis hkind hstate hdeclared =>
    rw [hstate] at hstands
    obtain ⟨rfl, -⟩ := hstands
    exact ⟨rfl, hstate⟩
  | unchanged hopen =>
    show v.state.isOpen = false
    rw [ComputedValue.isOpen_eq_isSome, hopen]
    rfl

/-- **A derivation that succeeds sets a value that shows its answer.** The style may have come about
by any steps, its values and those of its ancestors derived or inserted, over declarations that are
shared in any way. No other value of the style changes. -/
theorem derived_as_answered (steps : List (Step ν)) {style : Style ν}
    (hstyle : (Session.empty.run steps).1.HasStyle style) {text : String}
    (h : (style.derive property text (Session.empty.run steps).1.sheet).result = .ok resolution) :
    let outcome := style.derive property text (Session.empty.run steps).1.sheet
    (∃ v, outcome.subject.own? property = some v ∧ v.Shows property outcome.sheet resolution) ∧
    ∀ other, other ≠ property → outcome.subject.own? other = style.own? other := by
  intro outcome
  have hparent : ∀ w, Style.parentLookup? style.parent property = some w →
      w.declaration < (Session.empty.run steps).1.sheet.declarations.length := by
    intro w hw
    have hholds := Session.holds_of_hasStyle hstyle (Style.has_of_parentLookup? hw)
    exact Session.declared_of_run steps w hholds
  obtain ⟨v, hown, hstands, hagrees⟩ := agrees_derive hparent h
  exact ⟨⟨v, hown, shows_of_agrees hagrees hstands⟩,
    fun other hother => Style.own?_derive_of_ne hother text style _⟩

/-- A page with half the height of its block, as a value that was made apart and then moved into the
page, and a box in it. -/
def halfInserted : List (Step Rat) :=
  [.root "page" .standard, .new "half" "50%" .standard none, .copy "other" (.value "half"),
    .insert "page" .height "half", .child "box" "page"]

/-- The box takes the half over, which waits for the height of the block there too. -/
theorem derived_as_answered_halfInserted :
    let session := (Session.empty.run halfInserted).1
    ∃ style, session.style? "box" = some style ∧
      (style.derive .height "inherit" session.sheet).result =
        .ok (.pendingLayout .height 50 .height) ∧
      ∃ v, (style.derive .height "inherit" session.sheet).subject.own? .height = some v ∧
        v.state = .pendingLayout 50 .height .height := by
  intro session
  have hbox : (session.style? "box").bind (fun style =>
      (style.derive .height "inherit" session.sheet).result.toOption) =
      some (.pendingLayout .height 50 .height) := by decide +kernel
  obtain ⟨style, hstyle, hanswer⟩ := Option.bind_eq_some_iff.mp hbox
  have hresult := eq_ok_of_toOption hanswer
  have hhas : session.HasStyle style := Session.hasStyle_of_style? hstyle .self
  obtain ⟨⟨v, hown, -, hstate⟩, -⟩ := derived_as_answered halfInserted hhas hresult
  exact ⟨style, hstyle, hresult, v, hown, hstate⟩

end ComputedCss
