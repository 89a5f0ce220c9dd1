import ComputedCss.Proofs.Session.Answers
import ComputedCss.Proofs.Style.Origins

/-!
# Contexts in a tree of styles

Every value that a tree of styles stores comes from the style that it stands on or from an ancestor
of it, and has the parent of that style as its context. The two styles differ when the value has been
taken over from the parent.

* `Session.originates_of_step`, `Session.originates_of_run`: building styles keeps it.
* `context_of_run`: the context of a stored value, and what writing and resolving it does then.
* `not_context_sizeTakenOver`: a font size that was taken over is not resolved against the parent.
-/

namespace ComputedCss

variable {ν : Type}

namespace Session

/-- Every value that the session stores in a style comes from the lineage of the style. -/
def Originates (session : Session ν) : Prop :=
  ∀ style, session.HasStyle style → style.Originates

variable {session : Session ν} {style : Style ν}

theorem Sound.declares (h : session.Sound) (hstyle : session.HasStyle style) :
    Style.Declares session.sheet style.parent := fun _ _ hw =>
  Style.declared_of_parentLookup? (fun ancestor hline => h ancestor (hstyle.of_lineage hline)) hw

variable [Scalar ν]

theorem originates_of_makes {step : Step ν} {made : Style ν} {sheet : Sheet ν}
    (hsound : session.Sound) (h : session.Originates) (hmakes : session.Makes step made sheet) :
    made.Originates := by
  cases hmakes with
  | root name config => exact Style.originates_root config session.sheet
  | child name parent style hstyle => exact fun property v hmem => absurd hmem List.not_mem_nil
  | derive name property text style hstyle =>
    exact Style.originates_derive (hsound.declares hstyle)
      (fun ancestor hline => h ancestor (hstyle.of_lineage hline)) property text
  | bind name block style hstyle => exact Style.originates_bind (h style hstyle) block session.sheet

theorem originates_of_step {step : Step ν} (hstep : step.buildsStyles = true)
    (hsound : session.Sound) (h : session.Originates) : (session.step step).1.Originates := by
  rcases makes_of_step hstep with hsame | ⟨made, hmakes, hstyles⟩
  · exact hsame.symm ▸ h
  · intro style hstyle
    rcases hstyles style hstyle with rfl | hstyle
    · exact originates_of_makes hsound h hmakes
    · exact h style hstyle

theorem originates_of_run {steps : List (Step ν)}
    (hsteps : ∀ step ∈ steps, step.buildsStyles = true) :
    (empty.run steps).1.Sound ∧ (empty.run steps).1.Originates := by
  refine holds_of_run (P := fun session => session.Sound ∧ session.Originates)
    (fun session step hstep h => ⟨sound_of_step hstep h.1, originates_of_step hstep h.1 h.2⟩)
    hsteps ⟨sound_empty, ?_⟩
  rintro style ⟨name, named, hmem, -⟩
  exact absurd hmem List.not_mem_nil

end Session

/-- **The context of a stored value is the parent of the style that it comes from.** What a derivation
sets has the parent of the style as its context exactly when it is not taken over from that parent.
For every value that a tree stores there is a style of the lineage of which it has the parent as its
context, and to write a text to the value and resolve it does there what a derivation does: the same
result, the same state and the same declaration. That style is the one on which the value stands
exactly when the context is the parent. -/
theorem context_of_run [Scalar ν] {steps : List (Step ν)}
    (hsteps : ∀ step ∈ steps, step.buildsStyles = true) {style : Style ν}
    (hstyle : (Session.empty.run steps).1.HasStyle style) :
    let sheet := (Session.empty.run steps).1.sheet
    (∀ property text resolution, (style.derive property text sheet).result = .ok resolution →
      ∃ value v, Value.parse? text = .ok value ∧
        (style.derive property text sheet).subject = style.set property v ∧
        (v.context = style.parent ↔
          style.handedDown? property ⟨Text.trimmed text, value⟩ = none)) ∧
    ∀ property v, (property, v) ∈ style.properties → ∃ origin, style.Lineage origin ∧
      v.context = origin.parent ∧ (v.context = style.parent ↔ origin = style) ∧
      ∀ text, (∀ value : Value ν, Value.parse? text = .ok value →
          (⟨Text.trimmed text, value⟩ : Declaration ν).inherits = false) →
        let restated := v.restate property text sheet
        let derived := origin.derive property text sheet
        restated.result = derived.result ∧ ∀ resolution, derived.result = .ok resolution →
          ∃ w, derived.subject.own? property = some w ∧ restated.subject.state = w.state ∧
            restated.sheet.get restated.subject.declaration = derived.sheet.get w.declaration := by
  obtain ⟨hsound, horigins⟩ := Session.originates_of_run hsteps
  have hlineage : ∀ ancestor, style.Lineage ancestor → ancestor.Originates := fun ancestor hline =>
    horigins ancestor (hstyle.of_lineage hline)
  intro sheet
  refine ⟨fun property text resolution hresult => ?_, fun property v hmem => ?_⟩
  · obtain ⟨value, v, origin, hparse, hset, hline, hv, hsame⟩ :=
      Style.comesFrom_of_derive (hsound.declares hstyle) hlineage hresult
    exact ⟨value, v, hparse, hset, (hv.context_eq_iff hline).trans hsame⟩
  · obtain ⟨origin, hline, hv⟩ := horigins style hstyle property v hmem
    refine ⟨origin, hline, hv.context, hv.context_eq_iff hline, fun text hinherits => ?_⟩
    have hdeclared := (hsound style hstyle).declared property v hmem
    have horigin := hsound.declares (hstyle.of_lineage hline)
    obtain ⟨hresult, hrestated⟩ := Style.restate_agrees hv hdeclared horigin hinherits property
    refine ⟨hresult, fun resolution hok => ?_⟩
    obtain ⟨w, hset, halike⟩ := hrestated resolution hok
    refine ⟨w, ?_, halike.state, halike.get⟩
    rw [hset]
    exact Style.own?_set_self origin property w

/-- A page with a font size of 20 pixels, and a box in it that takes it over. -/
def sizeTakenOver : List (Step Rat) :=
  [.root "page" .standard, .derive "page" .fontSize "20px", .child "box" "page",
    .derive "box" .fontSize "inherit"]

theorem context_of_run_sizeTakenOver :
    let session := (Session.empty.run sizeTakenOver).1
    ∃ box v origin, session.style? "box" = some box ∧ box.own? .fontSize = some v ∧
      box.Lineage origin ∧ v.context = origin.parent ∧
      (v.restate .fontSize "2em" session.sheet).result =
        (origin.derive .fontSize "2em" session.sheet).result := by
  intro session
  have hbox : ((session.style? "box").bind (Style.own? · .fontSize)).isSome = true := by
    decide +kernel
  obtain ⟨v, hv⟩ := Option.isSome_iff_exists.mp hbox
  obtain ⟨box, hstyle, hown⟩ := Option.bind_eq_some_iff.mp hv
  have hsteps : ∀ step ∈ sizeTakenOver, step.buildsStyles = true := by decide
  have hhas : session.HasStyle box := Session.hasStyle_of_style? hstyle .self
  obtain ⟨-, horigins⟩ := context_of_run hsteps hhas
  obtain ⟨origin, hline, hcontext, -, hrestated⟩ := horigins .fontSize v (mem_of_lookup hown)
  obtain ⟨hresult, -⟩ := hrestated "2em" fun value _ => by
    show (Text.pieces _ (Text.trimmed "2em").toList).any _ = false
    decide +kernel
  exact ⟨box, v, origin, hstyle, hown, hline, hcontext, hresult⟩

/-- Writing `2em` to the font size of the box gives twice the configured size, while the box derives
twice that of the page. -/
theorem not_context_sizeTakenOver :
    let session := (Session.empty.run sizeTakenOver).1
    ∃ box v, session.style? "box" = some box ∧ box.own? .fontSize = some v ∧
      v.context ≠ box.parent ∧
      (v.restate .fontSize "2em" session.sheet).result = .ok (.resolved 32) ∧
      (box.derive .fontSize "2em" session.sheet).result = .ok (.resolved 40) := by
  intro session
  have hbox : (session.style? "box").bind (fun box => (box.own? .fontSize).map fun v =>
      (v.context.isSome, box.parent.isSome,
        (v.restate .fontSize "2em" session.sheet).result.toOption,
        (box.derive .fontSize "2em" session.sheet).result.toOption)) =
      some (false, true, some (.resolved 32), some (.resolved 40)) := by decide +kernel
  obtain ⟨box, hstyle, hread⟩ := Option.bind_eq_some_iff.mp hbox
  obtain ⟨v, hown, hread⟩ := Option.map_eq_some_iff.mp hread
  obtain ⟨hcontext, hread⟩ := Prod.mk.inj hread
  obtain ⟨hparent, hread⟩ := Prod.mk.inj hread
  obtain ⟨hrestated, hderived⟩ := Prod.mk.inj hread
  refine ⟨box, v, hstyle, hown, fun hsame => ?_, eq_ok_of_toOption hrestated,
    eq_ok_of_toOption hderived⟩
  rw [hsame, hparent] at hcontext
  exact absurd hcontext (by simp)

end ComputedCss
