import ComputedCss.Number.Exact
import ComputedCss.Session.Run
import ComputedCss.Proofs.Style.Sound

/-!
# Trees of styles

A tree of styles is built by making roots and children, deriving properties and binding styles, in
any order. Every style of a tree is sound.

* `Session.sound_of_step`, `Session.sound_of_run`: building keeps it.
* `style_of_run`: what follows for looking up and deriving.
-/

namespace ComputedCss

variable {ν : Type}

/-- The step makes a style, or derives a property of one, or binds one. -/
def Step.buildsStyles : Step ν → Bool
  | .root _ _ | .child _ _ | .derive _ _ _ | .bindStyle _ _ => true
  | _ => false

namespace Session

/-- The styles of a session: those that it names and their ancestors. -/
def HasStyle (session : Session ν) (style : Style ν) : Prop :=
  ∃ name named, (name, named) ∈ session.styles ∧ named.style.Lineage style

/-- Every style of the session is sound. -/
def Sound (session : Session ν) : Prop :=
  ∀ style, session.HasStyle style → style.Sound session.sheet

variable {session : Session ν} {style ancestor : Style ν} {name : String}

theorem hasStyle_of_style? (hstyle : session.style? name = some style)
    (h : style.Lineage ancestor) : session.HasStyle ancestor := by
  obtain ⟨named, hnamed, rfl⟩ := Option.map_eq_some_iff.mp hstyle
  exact ⟨name, named, mem_of_lookup hnamed, h⟩

theorem style?_of_openStyle? (h : session.openStyle? name = some style) :
    session.style? name = some style := by
  obtain ⟨named, hnamed, hopen⟩ := Option.bind_eq_some_iff.mp h
  by_cases hsealed : named.isSealed
  · rw [if_pos hsealed] at hopen
    exact absurd hopen (by simp)
  · rw [if_neg hsealed] at hopen
    rw [style?, hnamed]
    exact hopen

theorem hasStyle_put {named : NamedStyle ν}
    (h : HasStyle { session with styles := put name named session.styles } ancestor) :
    named.style.Lineage ancestor ∨ session.HasStyle ancestor := by
  obtain ⟨other, found, hmem, hline⟩ := h
  rcases mem_put hmem with heq | hmem
  · obtain ⟨-, rfl⟩ := Prod.mk.inj heq
    exact .inl hline
  · exact .inr ⟨other, found, hmem, hline⟩

theorem hasStyle_sealStyle (h : (session.sealStyle name).HasStyle ancestor) :
    session.HasStyle ancestor := by
  unfold sealStyle at h
  split at h
  · rename_i style hstyle
    rcases hasStyle_put h with hline | h
    · exact hasStyle_of_style? hstyle hline
    · exact h
  · exact h

theorem sealStyle_sheet (session : Session ν) (name : String) :
    (session.sealStyle name).sheet = session.sheet := by
  unfold sealStyle
  split
  · rfl
  · rfl

theorem sound_empty : (empty : Session ν).Sound := by
  rintro style ⟨name, named, hmem, -⟩
  exact absurd hmem List.not_mem_nil

theorem sound_changeStyle {α : Type} {operation : Style ν → Sheet ν → Outcome ν (Style ν) α}
    {answer : Session ν → Except (ValueError ν) α → Answer ν} (h : session.Sound)
    (hoperation : ∀ style : Style ν,
      (∀ ancestor, style.Lineage ancestor → ancestor.Sound session.sheet) →
      style.Keeps session.sheet (operation style session.sheet)) :
    (session.changeStyle name operation answer).1.Sound := by
  unfold changeStyle
  split
  · exact h
  · rename_i style hstyle
    have hnamed := style?_of_openStyle? hstyle
    have hkeeps := hoperation style fun ancestor hline => h ancestor (hasStyle_of_style? hnamed hline)
    intro ancestor hancestor
    rcases hasStyle_put hancestor with hline | hancestor
    · rcases Style.lineage_of_parent_eq hkeeps.parent hline with rfl | hline
      · exact hkeeps.sound
      · exact (h ancestor (hasStyle_of_style? hnamed hline)).mono hkeeps.length
    · exact (h ancestor hancestor).mono hkeeps.length

variable [Scalar ν]

theorem sound_of_step {step : Step ν} (hstep : step.buildsStyles = true) (h : session.Sound) :
    (session.step step).1.Sound := by
  cases step with
  | root name config =>
    have hlength : session.sheet.declarations.length ≤
        (Style.root config session.sheet).2.declarations.length :=
      List.length_append ▸ Nat.le_add_right _ _
    intro ancestor hancestor
    rcases hasStyle_put hancestor with hline | hancestor
    · rcases hline.self_or_parent with rfl | ⟨parent, hparent, -⟩
      · exact Style.sound_root config session.sheet
      · exact absurd hparent (by simp)
    · exact (h ancestor hancestor).mono hlength
  | child name parent =>
    unfold Session.step
    dsimp only
    split
    · rename_i style hstyle
      intro ancestor hancestor
      show ancestor.Sound (session.sealStyle parent).sheet
      rw [sealStyle_sheet]
      rcases hasStyle_put hancestor with hline | hancestor
      · rcases Style.lineage_childOf hline with rfl | hline
        · exact Style.sound_childOf style session.sheet
        · exact h ancestor (hasStyle_of_style? hstyle hline)
      · exact h ancestor (hasStyle_sealStyle hancestor)
    · exact h
  | derive name property text =>
    exact sound_changeStyle h fun style hline => Style.keeps_derive hline property text
  | bindStyle name block =>
    exact sound_changeStyle h fun style hline => Style.keeps_bind (hline style .self) block
  | _ => exact absurd hstep Bool.false_ne_true

theorem sound_of_run {steps : List (Step ν)}
    (hsteps : ∀ step ∈ steps, step.buildsStyles = true) (h : session.Sound) :
    (session.run steps).1.Sound := by
  induction steps generalizing session with
  | nil => exact h
  | cons step steps ih =>
    have hstep := sound_of_step (hsteps step List.mem_cons_self) h
    exact ih (fun step hmem => hsteps step (List.mem_cons_of_mem _ hmem)) hstep

end Session

/-- **Every style of a tree has a font size and keeps no relative value.** So a font size is missing
only above a root, a pending value waits under its own property, and a derivation fails over its
text, over a line height that is not there, or over a font size or line height without a number. -/
theorem style_of_run [Scalar ν] {steps : List (Step ν)}
    (hsteps : ∀ step ∈ steps, step.buildsStyles = true)
    {style : Style ν} (hstyle : (Session.empty.run steps).1.HasStyle style) :
    let sheet := (Session.empty.run steps).1.sheet
    ((style.lookup? .fontSize).isSome = true ∧
      ∀ property text (config : Config ν),
        Notice.missingFontSize config ∈ (style.derive property text sheet).notices →
          style.parent = none) ∧
    (∀ property v, (property, v) ∈ style.properties →
      (∀ x type, v.state ≠ .relative x type) ∧
      ∀ x pending axis, v.state = .pendingLayout x pending axis →
        pending = property ∧ property.layoutAxis? = some axis) ∧
    ∀ property text error, (style.derive property text sheet).result = .error error →
      (Value.parse? text = .error error ∧ error.OfText) ∨
      (property = .verticalAlign ∧ error = .missingProperty .lineHeight) ∨
      (error = .kindMismatch .scalar ∨ ∃ type, error = .notNumeric type) ∧
        ∃ source v, (source = .fontSize ∨ source = .lineHeight) ∧
          Style.parentLookup? style.parent source = some v ∧ v.number sheet = .error error := by
  have hsound : (Session.empty.run steps).1.Sound :=
    Session.sound_of_run hsteps Session.sound_empty
  obtain ⟨name, named, hnamed, hline⟩ := hstyle
  have hlineage : ∀ ancestor, style.Lineage ancestor →
      ancestor.Sound (Session.empty.run steps).1.sheet := fun ancestor hancestor =>
    hsound ancestor ⟨name, named, hnamed, hline.trans hancestor⟩
  have hroot := fun ancestor hancestor => (hlineage ancestor hancestor).fontSize
  intro sheet
  refine ⟨⟨Style.isSome_lookup? rfl hroot, fun property text config hnotice => ?_⟩,
    fun property v hmem => ?_, fun property text error herror => ?_⟩
  · exact Style.parent_eq_none rfl hroot (Style.parentLookup?_of_mem_notices hnotice)
  · have hstands := (hlineage style .self).stands property v hmem
    constructor
    · intro x type hstate
      rw [hstate] at hstands
      exact hstands
    · intro x pending axis hstate
      rw [hstate] at hstands
      exact hstands
  · rcases Style.error_of_derive hlineage herror with h | h | ⟨hkind, source, hsource, v, hv, hnumber⟩
    · exact .inl h
    · exact .inr (.inl h)
    · exact .inr (.inr ⟨hkind, source, v, hsource, hv, hnumber⟩)

/-- A page with a line height that is no number, and a box in it that waits for layout. -/
def boxInPage : List (Step Rat) :=
  [.root "page" .standard, .derive "page" .lineHeight "normal", .child "box" "page",
    .derive "box" .left "50%"]

theorem style_of_box_in_page :
    ∃ style, (Session.empty.run boxInPage).1.style? "box" = some style ∧
      (style.lookup? .fontSize).isSome = true := by
  have hsome : ((Session.empty.run boxInPage).1.style? "box").isSome = true := by decide +kernel
  obtain ⟨style, hstyle⟩ := Option.isSome_iff_exists.mp hsome
  have hhas : (Session.empty.run boxInPage).1.HasStyle style :=
    Session.hasStyle_of_style? hstyle .self
  exact ⟨style, hstyle, (style_of_run (by decide) hhas).1.1⟩

end ComputedCss
