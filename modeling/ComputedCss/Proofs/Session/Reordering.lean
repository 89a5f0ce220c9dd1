import ComputedCss.Number.Exact
import ComputedCss.Proofs.Session.Building

/-!
# The order of declarations

The declarations of a style are derived against its parent, and each stands on its own: it is
answered, and it sets its property, as if it were the only one.

* `Session.Extended`: a session in which further properties of a style have been derived.
* `Extended.derive`: one more derivation is answered as in the first session.
* `run_declare`: so is every declaration of a list; `shows_of_declare`: what the style then shows.
* `declared_in_any_order`: what this means for the order of the list.
-/

namespace ComputedCss

variable {ν : Type}

/-- The steps that derive some declarations of a style, one after the other. -/
def Step.declare (name : String) (declarations : List (Property × String)) : List (Step ν) :=
  declarations.map fun declaration => .derive name declaration.1 declaration.2

open ComputedValue (Alike)

namespace Session

/-- A later session, in which a style that may change has the parent and the settings that it had,
and the declarations say what they said. -/
structure Extended (session : Session ν) (name : String) (style : Style ν) (later : Session ν)
    (style' : Style ν) : Prop where
  opened : later.openStyle? name = some style'
  parent : style'.parent = style.parent
  config : style'.config = style.config
  sheet : later.sheet.Extends session.sheet

variable [Scalar ν] {session later : Session ν} {name : String} {style style' : Style ν}
  {property : Property}

theorem Extended.derive_alike (h : Extended session name style later style')
    (hhands : Style.HandsSteady session.sheet style.parent)
    (huntouched : Option.Rel (Alike session.sheet later.sheet) (style.own? property)
      (style'.own? property)) (text : String) :
    let alone := style.derive property text session.sheet
    let outcome := style'.derive property text later.sheet
    outcome.result = alone.result ∧ outcome.sheet.Extends later.sheet ∧
      outcome.subject.config = style'.config ∧
      (∀ other, other ≠ property → outcome.subject.own? other = style'.own? other) ∧
      Option.Rel (Alike alone.sheet outcome.sheet) (alone.subject.own? property)
        (outcome.subject.own? property) := by
  have hparents : Style.HandsAlike session.sheet later.sheet style.parent style'.parent := by
    rw [h.parent]
    exact (Style.handsAlike_refl hhands.declares).mono (.refl _) h.sheet
  have hlater : Style.HandsSteady later.sheet style'.parent := by
    rw [h.parent]
    exact hhands.mono h.sheet
  have halike := Style.deriveBy_alike Style.faithful_copy Style.faithful_copy hparents h.config
    property text
  have hextends := Style.extends_derive hhands property text
  have hextends' := Style.extends_derive hlater property text
  rw [Style.deriveBy_copy] at halike
  generalize style.derive property text session.sheet = alone,
    style'.derive property text later.sheet = outcome at halike hextends hextends' ⊢
  cases halike with
  | failed error sheet sheet' notices notices' =>
    exact ⟨rfl, hextends', rfl, fun other _ => rfl,
      ComputedValue.alike_mono huntouched hextends hextends'⟩
  | set resolution v v' sheet sheet' notices notices' hv =>
    refine ⟨rfl, hextends', rfl, fun other hother => Style.own?_set_of_ne hother style' v', ?_⟩
    rw [Style.own?_set_self, Style.own?_set_self]
    exact .some hv

theorem Extended.derive (hopen : session.openStyle? name = some style)
    (h : Extended session name style later style')
    (hhands : Style.HandsSteady session.sheet style.parent)
    (huntouched : Option.Rel (Alike session.sheet later.sheet) (style.own? property)
      (style'.own? property)) (text : String) :
    (later.step (.derive name property text)).2 = (session.step (.derive name property text)).2 ∧
    ∃ style'', Extended session name style (later.step (.derive name property text)).1 style'' ∧
      (later.step (.derive name property text)).1.sheet.Extends later.sheet ∧
      (∀ other, other ≠ property → style''.own? other = style'.own? other) ∧
      Option.Rel (Alike (session.step (.derive name property text)).1.sheet
        (later.step (.derive name property text)).1.sheet)
        ((style.derive property text session.sheet).subject.own? property)
        (style''.own? property) := by
  obtain ⟨hresult, hextends, hconfig, hothers, hown⟩ := h.derive_alike hhands huntouched text
  have hparent := Style.parent_derive property text style session.sheet
  have hparent' := Style.parent_derive property text style' later.sheet
  have hextends₀ := Style.extends_derive hhands property text
  rw [step_derive, step_derive, changeStyle_of_some hopen, changeStyle_of_some h.opened]
  dsimp only
  refine ⟨?_, (style'.derive property text later.sheet).subject, ⟨?_, ?_, ?_, ?_⟩, hextends,
    hothers, hown⟩
  · -- The answers show the looked up values, which are alike.
    rw [derived_putStyle, derived_putStyle, hresult]
    refine congrArg (Answer.effect _) (snapshot_of_alike (Style.lookup?_alike hown ?_))
    rw [hparent, hparent', h.parent]
    exact (Style.handsAlike_refl hhands.declares).mono hextends₀ (hextends.trans h.sheet) property
  · exact openStyle?_putStyle_self _ name _
  · rw [hparent', h.parent]
  · exact hconfig.trans h.config
  · exact hextends.trans h.sheet

omit [Scalar ν] in
theorem Extended.own?_alike (h : Extended session name style later style')
    (hdeclared : ∀ v, style.own? property = some v →
      v.declaration < session.sheet.declarations.length)
    (huntouched : style'.own? property = style.own? property) :
    Option.Rel (Alike session.sheet later.sheet) (style.own? property) (style'.own? property) := by
  rw [huntouched]
  cases hown : style.own? property with
  | none => exact .none
  | some v => exact .some ((Alike.refl (hdeclared v hown)).mono (.refl _) h.sheet)

/-- **Every declaration of a list is answered as in the first session**, and it sets its property as
it would there. -/
theorem run_declare (hopen : session.openStyle? name = some style)
    (hhands : Style.HandsSteady session.sheet style.parent)
    (hdeclared : ∀ property v, style.own? property = some v →
      v.declaration < session.sheet.declarations.length)
    (h : Extended session name style later style') (declarations : List (Property × String))
    (hnodup : (declarations.map Prod.fst).Nodup)
    (huntouched : ∀ declaration ∈ declarations,
      style'.own? declaration.1 = style.own? declaration.1) :
    let after := later.run (Step.declare name declarations)
    after.2 = declarations.map (fun declaration =>
      (session.step (.derive name declaration.1 declaration.2)).2) ∧
    ∃ final, Extended session name style after.1 final ∧ after.1.sheet.Extends later.sheet ∧
      (∀ property, property ∉ declarations.map Prod.fst →
        final.own? property = style'.own? property) ∧
      ∀ declaration ∈ declarations, Option.Rel
        (Alike (session.step (.derive name declaration.1 declaration.2)).1.sheet after.1.sheet)
        ((style.derive declaration.1 declaration.2 session.sheet).subject.own? declaration.1)
        (final.own? declaration.1) := by
  induction declarations generalizing later style' with
  | nil =>
    exact ⟨rfl, style', h, .refl _, fun _ _ => rfl, fun _ hmem => absurd hmem List.not_mem_nil⟩
  | cons declaration rest ih =>
    obtain ⟨property, text⟩ := declaration
    obtain ⟨hnew, hrest⟩ := List.nodup_cons.mp hnodup
    have hproperty := h.own?_alike (hdeclared property) (huntouched _ List.mem_cons_self)
    obtain ⟨hanswer, style'', hstyle, hsheet, hothers, hown⟩ :=
      h.derive hopen hhands hproperty text
    -- The rest is about other properties, which this declaration has left as they were.
    have hne : ∀ other ∈ rest, other.1 ≠ property := fun other hmem heq =>
      hnew (List.mem_map.mpr ⟨other, hmem, heq⟩)
    obtain ⟨hanswers, final, hfinal, hafter, hkept, hset⟩ := ih hstyle hrest fun other hmem =>
      (hothers _ (hne other hmem)).trans (huntouched other (List.mem_cons_of_mem _ hmem))
    refine ⟨congrArg₂ List.cons hanswer hanswers, final, hfinal, hafter.trans hsheet, ?_, ?_⟩
    · intro other hmem
      have hother : other ≠ property := fun heq => hmem (heq ▸ List.mem_cons_self)
      exact (hkept other fun hlate => hmem (List.mem_cons_of_mem _ hlate)).trans
        (hothers other hother)
    · intro other hmem
      rcases List.mem_cons.mp hmem with rfl | hmem
      · show Option.Rel _ _ (final.own? property)
        rw [hkept property hnew]
        exact ComputedValue.alike_mono hown (.refl _) hafter
      · exact hset other hmem

/-- Two styles show the same of a property, of their own values and of those that they look up. -/
def ShowsAs (later : Session ν) (style' : Style ν) (reference : Session ν) (style₀ : Style ν)
    (property : Property) : Prop :=
  (style'.own? property).map later.snapshot = (style₀.own? property).map reference.snapshot ∧
    (style'.lookup? property).map later.snapshot =
      (style₀.lookup? property).map reference.snapshot

theorem Extended.shows {reference : Session ν} {style₀ : Style ν}
    (h : Extended session name style later style')
    (hhands : Style.HandsSteady session.sheet style.parent)
    (hparent : style₀.parent = style.parent) (hreference : reference.sheet.Extends session.sheet)
    (hown : Option.Rel (Alike reference.sheet later.sheet) (style₀.own? property)
      (style'.own? property)) : ShowsAs later style' reference style₀ property := by
  refine ⟨snapshot_of_alike hown, snapshot_of_alike (Style.lookup?_alike hown ?_)⟩
  rw [hparent, h.parent]
  exact (Style.handsAlike_refl hhands.declares).mono hreference h.sheet property

theorem shows_of_declare (hopen : session.openStyle? name = some style)
    (hhands : Style.HandsSteady session.sheet style.parent)
    (hdeclared : ∀ property v, style.own? property = some v →
      v.declaration < session.sheet.declarations.length)
    (declarations : List (Property × String)) (hnodup : (declarations.map Prod.fst).Nodup) :
    let after := session.run (Step.declare name declarations)
    after.2 = declarations.map (fun declaration =>
      (session.step (.derive name declaration.1 declaration.2)).2) ∧
    ∃ final, after.1.style? name = some final ∧ final.parent = style.parent ∧
      (∀ declaration ∈ declarations, ShowsAs after.1 final
        (session.step (.derive name declaration.1 declaration.2)).1
        (style.derive declaration.1 declaration.2 session.sheet).subject declaration.1) ∧
      ∀ property, property ∉ declarations.map Prod.fst →
        ShowsAs after.1 final session style property := by
  obtain ⟨hanswers, final, hfinal, -, hkept, hset⟩ :=
    run_declare hopen hhands hdeclared ⟨hopen, rfl, rfl, .refl _⟩ declarations hnodup fun _ _ => rfl
  refine ⟨hanswers, final, style?_of_openStyle? hfinal.opened, hfinal.parent,
    fun declaration hmem => ?_, fun property hmem => ?_⟩
  · have hparent := Style.parent_derive declaration.1 declaration.2 style session.sheet
    have hreference : (session.step (.derive name declaration.1 declaration.2)).1.sheet.Extends
        session.sheet := by
      rw [step_derive, changeStyle_of_some hopen]
      exact Style.extends_derive hhands declaration.1 declaration.2
    exact hfinal.shows hhands hparent hreference (hset _ hmem)
  · exact hfinal.shows hhands rfl (.refl _)
      (hfinal.own?_alike (hdeclared property) (hkept property hmem))

end Session

variable [Scalar ν]

/-- **The declarations of a style are derived in any order.** Each gets one answer, and each property
ends with one state and one text, whatever comes first. -/
theorem declared_in_any_order {steps : List (Step ν)}
    (hsteps : ∀ step ∈ steps, step.buildsStyles = true) {name : String} {style : Style ν}
    (hopen : (Session.empty.run steps).1.openStyle? name = some style)
    {declarations order : List (Property × String)}
    (hnodup : (declarations.map Prod.fst).Nodup) (horder : order.Perm declarations) :
    let session := (Session.empty.run steps).1
    let first := session.run (Step.declare name declarations)
    let second := session.run (Step.declare name order)
    (order.zip second.2).Perm (declarations.zip first.2) ∧
    ∃ final final', first.1.style? name = some final ∧ second.1.style? name = some final' ∧
      final'.parent = final.parent ∧ ∀ property,
        (final'.own? property).map second.1.snapshot =
          (final.own? property).map first.1.snapshot ∧
        (final'.lookup? property).map second.1.snapshot =
          (final.lookup? property).map first.1.snapshot := by
  obtain ⟨hsound, hsteady⟩ := Session.steady_of_run hsteps
  intro session first second
  have hstyle : session.HasStyle style :=
    Session.hasStyle_of_style? (Session.style?_of_openStyle? hopen) .self
  have hhands := Session.handsSteady ComputedValue.lasting_steady hsound hsteady hstyle
  have hdeclared : ∀ property v, style.own? property = some v →
      v.declaration < session.sheet.declarations.length := fun property v hv =>
    (hsound style hstyle).declared property v (mem_of_lookup hv)
  obtain ⟨hanswers, final, hfinal, hparent, hset, hkept⟩ :=
    Session.shows_of_declare hopen hhands hdeclared declarations hnodup
  obtain ⟨hanswers', final', hfinal', hparent', hset', hkept'⟩ :=
    Session.shows_of_declare hopen hhands hdeclared order
      ((horder.map Prod.fst).nodup_iff.mpr hnodup)
  refine ⟨?_, final, final', hfinal, hfinal', hparent'.trans hparent.symm, fun property => ?_⟩
  · show (order.zip second.2).Perm (declarations.zip first.2)
    rw [hanswers, hanswers', ← List.map_prod_left_eq_zip, ← List.map_prod_left_eq_zip]
    exact horder.map _
  · -- Both runs show what the declaration of the property shows alone, or what was there before.
    by_cases hmem : property ∈ declarations.map Prod.fst
    · obtain ⟨declaration, hdeclaration, rfl⟩ := List.mem_map.mp hmem
      obtain ⟨hown, hlookup⟩ := hset _ hdeclaration
      obtain ⟨hown', hlookup'⟩ := hset' _ (horder.mem_iff.mpr hdeclaration)
      exact ⟨hown'.trans hown.symm, hlookup'.trans hlookup.symm⟩
    · obtain ⟨hown, hlookup⟩ := hkept property hmem
      obtain ⟨hown', hlookup'⟩ :=
        hkept' property fun h => hmem ((horder.map Prod.fst).mem_iff.mp h)
      exact ⟨hown'.trans hown.symm, hlookup'.trans hlookup.symm⟩

/-- A box in a page that has a line height and waits for layout. -/
def boxInTallPage : List (Step Rat) :=
  [.root "page" .standard, .derive "page" .lineHeight "24px", .derive "page" .height "50%",
    .child "box" "page"]

/-- Declarations of the box, one of which cannot be read. -/
def boxDeclarations : List (Property × String) :=
  [(.fontSize, "2em"), (.lineHeight, "1.5em"), (.verticalAlign, "50%"), (.height, "inherit"),
    (.left, "url(")]

theorem declared_in_any_order_reversed :
    let session := (Session.empty.run boxInTallPage).1
    (boxDeclarations.reverse.zip
      (session.run (Step.declare "box" boxDeclarations.reverse)).2).Perm
        (boxDeclarations.zip (session.run (Step.declare "box" boxDeclarations)).2) := by
  have hsome : ((Session.empty.run boxInTallPage).1.openStyle? "box").isSome = true := by
    decide +kernel
  obtain ⟨style, hopen⟩ := Option.isSome_iff_exists.mp hsome
  exact (declared_in_any_order (by decide) hopen (by decide) (List.reverse_perm _)).1

end ComputedCss
