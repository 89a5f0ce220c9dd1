import ComputedCss.Proofs.Number.Whole
import ComputedCss.Proofs.Session.Building

/-!
# Sharing before layout

A value that is inherited shares the declaration of the parent's. As long as nothing is bound, this
makes no difference: every derivation leaves the declarations of the others alone.

* `Session.runBy`: a run in which derivations take values over in a given way; with copies it is the
  run of the session (`runBy_copy`).
* `Session.Mirrors`: two sessions whose styles cannot be told apart.
* `mirrors_stepBy_detach`, `mirrors_runBy_detach`: a run with copies that share nothing mirrors one
  with copies that share their declarations, and gives the same answers.
* `derive_leaves`, `derive_inherits`: what one derivation changes, and what it takes over.
* `sharing_unobservable`: what can be seen of a tree before layout.
-/

namespace ComputedCss

variable {ν : Type}

namespace Session

/-! ## Sessions that mirror each other -/

/-- The sessions have the same styles by name, as far as can be told. -/
def Mirrors (session session' : Session ν) : Prop :=
  ∀ name, Option.Rel (fun named named' => named'.isSealed = named.isSealed ∧
      Style.Alike session.sheet session'.sheet named.style named'.style)
    (session.styles.lookup name) (session'.styles.lookup name)

variable {session session' after after' : Session ν} {name : String} {style style' : Style ν}

theorem mirrors_empty : Mirrors (empty : Session ν) empty :=
  fun _ => .none

theorem rel_cases {α : Type} {R : α → α → Prop} {a b : Option α} (h : Option.Rel R a b) :
    a = none ∧ b = none ∨ ∃ x y, a = some x ∧ b = some y ∧ R x y := by
  cases h with
  | none => exact .inl ⟨rfl, rfl⟩
  | some hxy => exact .inr ⟨_, _, rfl, rfl, hxy⟩

theorem Mirrors.style? (h : session.Mirrors session') (name : String) :
    session.style? name = none ∧ session'.style? name = none ∨
    ∃ style style', session.style? name = some style ∧ session'.style? name = some style' ∧
      Style.Alike session.sheet session'.sheet style style' := by
  unfold Session.style?
  rcases rel_cases (h name) with ⟨hnone, hnone'⟩ | ⟨named, named', hsome, hsome', -, hstyle⟩
  · exact .inl ⟨congrArg _ hnone, congrArg _ hnone'⟩
  · exact .inr ⟨named.style, named'.style, congrArg _ hsome, congrArg _ hsome', hstyle⟩

theorem Mirrors.openStyle? (h : session.Mirrors session') (name : String) :
    session.openStyle? name = none ∧ session'.openStyle? name = none ∨
    ∃ style style', session.openStyle? name = some style ∧
      session'.openStyle? name = some style' ∧
      Style.Alike session.sheet session'.sheet style style' := by
  unfold Session.openStyle?
  rcases rel_cases (h name) with ⟨hnone, hnone'⟩ | ⟨named, named', hsome, hsome', hsealed, hstyle⟩
  · rw [hnone, hnone']
    exact .inl ⟨rfl, rfl⟩
  · rw [hsome, hsome']
    dsimp only [Option.bind]
    rw [hsealed]
    cases named.isSealed with
    | true => exact .inl ⟨rfl, rfl⟩
    | false => exact .inr ⟨named.style, named'.style, rfl, rfl, hstyle⟩

theorem Mirrors.put (h : session.Mirrors session') {isSealed : Bool}
    (hstyles : after.styles = put name ⟨style, isSealed⟩ session.styles)
    (hstyles' : after'.styles = put name ⟨style', isSealed⟩ session'.styles)
    (hsheet : after.sheet.Extends session.sheet) (hsheet' : after'.sheet.Extends session'.sheet)
    (hstyle : Style.Alike after.sheet after'.sheet style style') : after.Mirrors after' := by
  intro other
  rw [hstyles, hstyles']
  by_cases hother : other = name
  · rw [hother, lookup_put_self, lookup_put_self]
    exact .some ⟨rfl, hstyle⟩
  · rw [lookup_put_of_ne hother, lookup_put_of_ne hother]
    rcases rel_cases (h other) with ⟨hnone, hnone'⟩ | ⟨named, named', hsome, hsome', hsealed, hold⟩
    · rw [hnone, hnone']
      exact .none
    · rw [hsome, hsome']
      exact .some ⟨hsealed, hold.mono hsheet hsheet'⟩

theorem Mirrors.sealStyle (h : session.Mirrors session') (name : String) :
    (session.sealStyle name).Mirrors (session'.sealStyle name) := by
  unfold Session.sealStyle
  rcases h.style? name with ⟨hnone, hnone'⟩ | ⟨style, style', hsome, hsome', hstyle⟩
  · rw [hnone, hnone']
    exact h
  · rw [hsome, hsome']
    exact h.put rfl rfl (.refl _) (.refl _) hstyle

variable [Scalar ν]

/-! ## Steps with a handover -/

/-- A step in which a derivation takes the parent's value over in a given way. -/
def stepBy (take : Style.Handover ν) (session : Session ν) : Step ν → Session ν × Answer ν
  | .derive name property text =>
    session.changeStyle name (·.deriveBy take property text ·) (derived name property)
  | step => session.step step

/-- The answers of some steps, and the session after them, for one way to take values over. -/
def runBy (take : Style.Handover ν) (session : Session ν) :
    List (Step ν) → Session ν × List (Answer ν)
  | [] => (session, [])
  | step :: steps =>
    let (session, answer) := session.stepBy take step
    let (session, answers) := session.runBy take steps
    (session, answer :: answers)

theorem stepBy_derive (take : Style.Handover ν) (session : Session ν) (name : String)
    (property : Property) (text : String) : session.stepBy take (.derive name property text) =
      session.changeStyle name (·.deriveBy take property text ·) (derived name property) := rfl

theorem stepBy_copy (session : Session ν) (step : Step ν) :
    session.stepBy ComputedValue.copy step = session.step step := by
  cases step with
  | derive name property text => rw [stepBy_derive, step_derive, Style.deriveBy_copy]
  | _ => rfl

theorem runBy_copy (session : Session ν) (steps : List (Step ν)) :
    session.runBy ComputedValue.copy steps = session.run steps := by
  induction steps generalizing session with
  | nil => rfl
  | cons step steps ih =>
    unfold runBy run
    rw [stepBy_copy]
    dsimp only
    rw [ih]

variable {step : Step ν}

theorem derive_detach_alike {sheet sheet' : Sheet ν}
    (hhands : Style.HandsSteady sheet style.parent) (hstyle : Style.Alike sheet sheet' style style')
    (property : Property) (text : String) :
    let outcome := style.derive property text sheet
    let outcome' := style'.deriveBy ComputedValue.detach property text sheet'
    outcome'.result = outcome.result ∧ outcome.sheet.Extends sheet ∧
      outcome'.sheet.Extends sheet' ∧
      Style.Alike outcome.sheet outcome'.sheet outcome.subject outcome'.subject := by
  have hparents := hstyle.handsAlike
  have hsheet := Style.extends_derive hhands property text
  have hsheet' := Style.extends_deriveBy_detach hparents.declares.2 property text
  have halike := Style.deriveBy_alike Style.faithful_copy Style.faithful_detach hparents
    hstyle.config property text
  have hmono := hstyle.mono hsheet hsheet'
  rw [Style.deriveBy_copy] at halike
  generalize style.derive property text sheet = outcome,
    style'.deriveBy ComputedValue.detach property text sheet' = outcome'
    at halike hsheet hsheet' hmono ⊢
  cases halike with
  | failed error later later' notices notices' => exact ⟨rfl, hsheet, hsheet', hmono⟩
  | set resolution v v' later later' notices notices' hv =>
    exact ⟨rfl, hsheet, hsheet', hmono.set property hv⟩

/-- A step with copies that share nothing gives the same answer, and the sessions go on mirroring
each other. -/
theorem mirrors_stepBy_detach (hhands : ∀ style, session.HasStyle style →
      Style.HandsSteady session.sheet style.parent)
    (h : session.Mirrors session') (hstep : step.derivesStyles = true) :
    (session'.stepBy ComputedValue.detach step).2 = (session.step step).2 ∧
      (session.step step).1.Mirrors (session'.stepBy ComputedValue.detach step).1 := by
  cases step with
  | root name config =>
    refine ⟨rfl, h.put rfl rfl ?_ ?_ (Style.alike_root config session.sheet session'.sheet)⟩
    · have hadd := session.sheet.extends_add (.ofPrimitive (.numeric config.defaultFontSize .px))
      exact ⟨hadd.length, hadd.get⟩
    · have hadd := session'.sheet.extends_add (.ofPrimitive (.numeric config.defaultFontSize .px))
      exact ⟨hadd.length, hadd.get⟩
  | child name parent =>
    show (session'.step (.child name parent)).2 = _ ∧
      Mirrors _ (session'.step (.child name parent)).1
    rcases h.style? parent with ⟨hnone, hnone'⟩ | ⟨style, style', hsome, hsome', hstyle⟩
    · rw [step_child_of_none hnone, step_child_of_none hnone']
      exact ⟨rfl, h⟩
    · rw [step_child_of_some hsome, step_child_of_some hsome']
      refine ⟨rfl, (h.sealStyle parent).put rfl rfl (.refl _) (.refl _) ?_⟩
      show Style.Alike (session.sealStyle parent).sheet (session'.sealStyle parent).sheet _ _
      rw [sealStyle_sheet, sealStyle_sheet]
      exact hstyle.childOf
  | derive name property text =>
    rw [step_derive, stepBy_derive]
    rcases h.openStyle? name with ⟨hnone, hnone'⟩ | ⟨style, style', hsome, hsome', hstyle⟩
    · rw [changeStyle_of_none hnone, changeStyle_of_none hnone']
      exact ⟨rfl, h⟩
    · have hstands := hhands style (hasStyle_of_style? (style?_of_openStyle? hsome) .self)
      obtain ⟨hresult, hsheet, hsheet', hsubject⟩ :=
        derive_detach_alike hstands hstyle property text
      rw [changeStyle_of_some hsome, changeStyle_of_some hsome']
      dsimp only
      rw [derived_putStyle, derived_putStyle, hresult]
      exact ⟨congrArg (Answer.effect _) (snapshot_of_alike (hsubject.lookup? property)),
        h.put rfl rfl hsheet hsheet' hsubject⟩
  | _ => exact absurd hstep Bool.false_ne_true

theorem mirrors_runBy_detach {steps : List (Step ν)}
    (hsteps : ∀ step ∈ steps, step.derivesStyles = true) (hsound : session.Sound)
    (hsteady : session.Stores fun property sheet v => v.Steady property sheet)
    (h : session.Mirrors session') :
    (session'.runBy ComputedValue.detach steps).2 = (session.run steps).2 ∧
      (session.run steps).1.Mirrors (session'.runBy ComputedValue.detach steps).1 := by
  induction steps generalizing session session' with
  | nil => exact ⟨rfl, h⟩
  | cons step steps ih =>
    have hstep := hsteps step List.mem_cons_self
    obtain ⟨hanswer, hmirrors⟩ := mirrors_stepBy_detach
      (fun style hstyle => handsSteady ComputedValue.lasting_steady hsound hsteady hstyle) h hstep
    obtain ⟨hanswers, hrest⟩ := ih (fun step hmem => hsteps step (List.mem_cons_of_mem _ hmem))
      (sound_of_step (Step.buildsStyles_of_derivesStyles hstep) hsound)
      (stores_of_step ComputedValue.lasting_steady hsound hsteady hstep) hmirrors
    exact ⟨congrArg₂ List.cons hanswer hanswers, hrest⟩

/-! ## One derivation -/

theorem derive_leaves (hsound : session.Sound)
    (hhands : ∀ style, session.HasStyle style → Style.HandsSteady session.sheet style.parent)
    (name : String) (property : Property) (text : String) :
    let after := (session.step (.derive name property text)).1
    (∀ other, other ≠ name → after.styles.lookup other = session.styles.lookup other) ∧
    (∀ style, session.openStyle? name = some style → ∃ derived,
      after.openStyle? name = some derived ∧ derived.parent = style.parent ∧
        ∀ other, other ≠ property → derived.own? other = style.own? other) ∧
    ∀ style, session.HasStyle style → ∀ source v, (source, v) ∈ style.properties →
      after.sheet.get v.declaration = session.sheet.get v.declaration := by
  rw [step_derive]
  cases hopen : session.openStyle? name with
  | none =>
    rw [changeStyle_of_none hopen]
    exact ⟨fun _ _ => rfl, fun style hstyle => absurd hstyle (by simp), fun _ _ _ _ _ => rfl⟩
  | some style =>
    have hstands := hhands style (hasStyle_of_style? (style?_of_openStyle? hopen) .self)
    have hextends := Style.extends_derive hstands property text
    rw [changeStyle_of_some hopen]
    refine ⟨fun other hother => lookup_put_of_ne hother _ _, fun style' hstyle' => ?_,
      fun style' hstyle' source v hmem =>
        hextends.get _ ((hsound style' hstyle').declared source v hmem)⟩
    obtain rfl := Option.some.inj hstyle'
    exact ⟨_, openStyle?_putStyle_self _ name _,
      Style.parent_derive property text style session.sheet,
      fun other hother => Style.own?_derive_of_ne hother text style session.sheet⟩

theorem derive_inherits (hstyle : session.openStyle? name = some style)
    (hdeclares : Style.Declares session.sheet style.parent) {property : Property} {text : String}
    {value : Value ν} (hparse : Value.parse? text = .ok value)
    (hinherits : (⟨Text.trimmed text, value⟩ : Declaration ν).inherits = true)
    {u : Style.Entry ν} (hu : Style.parentLookup? style.parent property = some u)
    (hcurrent : u.Current property session.sheet) :
    let after := (session.step (.derive name property text)).1
    ∃ derived v, after.openStyle? name = some derived ∧ derived.own? property = some v ∧
      v.state = u.state ∧ v.text after.sheet = u.text session.sheet := by
  obtain ⟨resolution, v, -, hset, hstate, htext⟩ :=
    Style.derive_of_inherits hparse hinherits hdeclares hu hcurrent
  rw [step_derive, changeStyle_of_some hstyle]
  refine ⟨_, v, openStyle?_putStyle_self _ name _, ?_, hstate, htext⟩
  rw [hset, Style.own?_set_self]

end Session

variable [Scalar ν]

/-- **Sharing cannot be seen before layout.** A derivation leaves the other styles and all their
declarations as they are, a value that is inherited has the state and the text of the parent's, and
the run is answered as one with copies that share nothing. Doubles round down as it is asked here
(`Binary64.floor_floor`). -/
theorem sharing_unobservable (hfloor : ∀ x : ν, Scalar.floor (Scalar.floor x) = Scalar.floor x)
    {steps : List (Step ν)} (hsteps : ∀ step ∈ steps, step.derivesStyles = true) :
    let session := (Session.empty.run steps).1
    (∀ name property text, let after := (session.step (.derive name property text)).1
      (∀ other, other ≠ name → after.styles.lookup other = session.styles.lookup other) ∧
      (∀ style, session.openStyle? name = some style → ∃ derived,
        after.openStyle? name = some derived ∧ derived.parent = style.parent ∧
          ∀ other, other ≠ property → derived.own? other = style.own? other) ∧
      ∀ style, session.HasStyle style → ∀ source v, (source, v) ∈ style.properties →
        after.sheet.get v.declaration = session.sheet.get v.declaration) ∧
    (∀ name style property text (value : Value ν) u, session.openStyle? name = some style →
      Value.parse? text = .ok value →
      (⟨Text.trimmed text, value⟩ : Declaration ν).inherits = true →
      Style.parentLookup? style.parent property = some u →
      let after := (session.step (.derive name property text)).1
      ∃ derived v, after.openStyle? name = some derived ∧ derived.own? property = some v ∧
        v.state = u.state ∧ v.text after.sheet = u.text session.sheet) ∧
    (Session.empty.runBy ComputedValue.detach steps).2 = (Session.empty.run steps).2 ∧
    session.Mirrors (Session.empty.runBy ComputedValue.detach steps).1 := by
  obtain ⟨hsound, hcurrent⟩ := Session.current_of_run hfloor hsteps
  intro session
  have hhands : ∀ style, session.HasStyle style →
      Style.HandsSteady session.sheet style.parent := fun style hstyle =>
    Session.handsSteady (ComputedValue.lasting_current hfloor) hsound hcurrent hstyle
  refine ⟨Session.derive_leaves hsound hhands,
    fun name style property text value u hopen hparse hinherits hu => ?_,
    Session.mirrors_runBy_detach hsteps Session.sound_empty Session.stores_empty
      Session.mirrors_empty⟩
  have hstyle := Session.hasStyle_of_style? (Session.style?_of_openStyle? hopen) .self
  obtain ⟨ancestor, hline, hmem⟩ := Style.mem_of_parentLookup? hu
  exact Session.derive_inherits hopen (hhands style hstyle).declares hparse hinherits hu
    (hcurrent ancestor (hstyle.of_lineage hline) property u hmem)

/-- A page with a line height in inches and a height that waits for layout, and a box that takes the
height over. -/
def inheritedInPage : List (Step Float) :=
  [.root "page" .standard, .derive "page" .lineHeight "1in", .derive "page" .height "50%",
    .child "box" "page", .derive "box" .height "inherit"]

theorem sharing_unobservable_inheritedInPage :
    let session := (Session.empty.run inheritedInPage).1
    let after := (session.step (.derive "box" .lineHeight "inherit")).1
    (Session.empty.runBy ComputedValue.detach inheritedInPage).2 =
      (Session.empty.run inheritedInPage).2 ∧
    ∃ box derived u v, session.openStyle? "box" = some box ∧
      after.openStyle? "box" = some derived ∧ derived.own? .lineHeight = some v ∧
      Style.parentLookup? box.parent .lineHeight = some u ∧ v.state = u.state ∧
      v.text after.sheet = "1in" := by
  have hpage : ((Session.empty.run inheritedInPage).1.openStyle? "box").bind (fun box =>
      (Style.parentLookup? box.parent .lineHeight).map
        (·.text (Session.empty.run inheritedInPage).1.sheet)) = some "1in" := by decide +kernel
  obtain ⟨box, hbox, hparent⟩ := Option.bind_eq_some_iff.mp hpage
  obtain ⟨u, hu, htext⟩ := Option.map_eq_some_iff.mp hparent
  obtain ⟨-, hinherit, hanswers, -⟩ := sharing_unobservable Binary64.floor_floor
    (show ∀ step ∈ inheritedInPage, step.derivesStyles = true by decide)
  obtain ⟨derived, v, hopen, hown, hstate, htext'⟩ :=
    hinherit "box" box .lineHeight "inherit" (.single (.ident "inherit")) u hbox rfl
      (by decide +kernel) hu
  exact ⟨hanswers, box, derived, u, v, hbox, hopen, hown, hu, hstate, htext'.trans htext⟩

end ComputedCss
