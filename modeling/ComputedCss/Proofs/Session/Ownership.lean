import ComputedCss.Proofs.Session.Styles
import ComputedCss.Proofs.Style.Order

/-!
# Declarations and their properties

In a tree of styles a declaration belongs to one property, however often the value is inherited. So
the values of a style are bound in any order.

* `Session.Owned`: no declaration stands under two properties; `owned_of_step`: building keeps it.
* `Session.runIn`: a run in which every binding takes the values in an order of its own.
* `bound_in_any_order`: the orders make no difference.
-/

namespace ComputedCss

variable {ν : Type} [Scalar ν]

/-- An order in which the values of a style are taken, for every style. -/
abbrev Style.Order (ν : Type) :=
  { order : Style ν → List Property // ∀ style, (order style).Perm (style.properties.map Prod.fst) }

namespace Session

/-! ## Runs with orders -/

/-- A step in which binding takes the values of a style in a given order. -/
def stepIn (session : Session ν) (order : Style.Order ν) : Step ν → Session ν × Answer ν
  | .bindStyle name block =>
    session.changeStyle name (fun style sheet => style.bindIn block (order.1 style) sheet)
      fun _ result => answerOf result .count
  | step => session.step step

/-- The answers of some steps, each with an order for its binding, and the session after them. -/
def runIn (session : Session ν) : List (Step ν × Style.Order ν) → Session ν × List (Answer ν)
  | [] => (session, [])
  | (step, order) :: steps =>
    let (session, answer) := session.stepIn order step
    let (session, answers) := session.runIn steps
    (session, answer :: answers)

theorem stepIn_bindStyle (session : Session ν) (order : Style.Order ν) (name : String)
    (block : ContainingBlock ν) : session.stepIn order (.bindStyle name block) =
      session.changeStyle name (fun style sheet => style.bindIn block (order.1 style) sheet)
        fun _ result => answerOf result .count := rfl

/-! ## One property for a declaration -/

/-- No style of the session repeats a property, and no declaration stands under two properties. -/
structure Owned (session : Session ν) : Prop where
  keys : ∀ style, session.HasStyle style → (style.properties.map Prod.fst).Nodup
  apart : ∀ style other, session.HasStyle style → session.HasStyle other →
    ∀ property v property' w, (property, v) ∈ style.properties →
      (property', w) ∈ other.properties → v.declaration = w.declaration → property = property'

variable {session : Session ν} {step : Step ν} {made style : Style ν} {sheet : Sheet ν}

omit [Scalar ν] in
theorem owned_empty : (empty : Session ν).Owned := by
  have hnone : ∀ style : Style ν, ¬(empty : Session ν).HasStyle style := by
    rintro style ⟨name, named, hmem, -⟩
    exact absurd hmem List.not_mem_nil
  exact ⟨fun style hstyle => absurd hstyle (hnone style),
    fun style other hstyle => absurd hstyle (hnone style)⟩

omit [Scalar ν] in
theorem Owned.styleApart (h : session.Owned) (hstyle : session.HasStyle style) : style.Apart :=
  fun property other v w hv hw => h.apart style style hstyle hstyle property v other w
    (mem_of_lookup hv) (mem_of_lookup hw)

theorem keys_of_makes (h : session.Owned) (hmakes : session.Makes step made sheet) :
    (made.properties.map Prod.fst).Nodup :=
  (follows_of_makes hmakes).keys h.keys

theorem declarations_of_makes (hmakes : session.Makes step made sheet) :
    ∃ fresh, ∀ property v, (property, v) ∈ made.properties →
      property = fresh ∧ v.declaration = session.sheet.declarations.length ∨
      ∃ old w, session.HasStyle old ∧ (property, w) ∈ old.properties ∧
        w.declaration = v.declaration := by
  cases hmakes with
  | root name config =>
    refine ⟨.fontSize, fun property v hmem => .inl ?_⟩
    obtain ⟨rfl, rfl⟩ := Prod.mk.inj (List.mem_singleton.mp hmem)
    exact ⟨rfl, rfl⟩
  | child name parent style hstyle =>
    exact ⟨.fontSize, fun property v hmem => absurd hmem List.not_mem_nil⟩
  | derive name property text style hstyle =>
    refine ⟨property, fun other v hmem => ?_⟩
    have hderives := Style.derives property text style session.sheet
    generalize style.derive property text session.sheet = outcome at hderives hmem
    cases hderives with
    | unreadable error notices hparse => exact .inr ⟨style, v, hstyle, hmem, rfl⟩
    | failed declaration settled error notices hpass hresult =>
      exact .inr ⟨style, v, hstyle, hmem, rfl⟩
    | set declaration settled resolution notices hpass hresult =>
      rcases mem_put hmem with heq | hmem
      · obtain ⟨rfl, rfl⟩ := Prod.mk.inj heq
        rw [(Style.stands_of_stylePass hpass hresult).2]
        rcases Style.drawn_cases other declaration style session.sheet with
          hnew | ⟨-, w, hw, hshared⟩
        · exact .inl ⟨rfl, hnew⟩
        · obtain ⟨ancestor, hline, hfound⟩ := Style.mem_of_parentLookup? hw
          exact .inr ⟨ancestor, w, hstyle.of_lineage hline, hfound, hshared.symm⟩
      · exact .inr ⟨style, v, hstyle, hmem, rfl⟩
  | bind name block style hstyle =>
    refine ⟨.fontSize, fun property v hmem => .inr ?_⟩
    change (property, v) ∈ (Style.bindEach block style.properties session.sheet).subject at hmem
    rw [(Style.bindEach_spec block style.properties session.sheet).2] at hmem
    obtain ⟨⟨other, w⟩, hw, heq⟩ := List.mem_map.mp hmem
    obtain ⟨rfl, rfl⟩ := Prod.mk.inj heq
    exact ⟨style, w, hstyle, hw, (ComputedValue.declaration_bound w block).symm⟩

theorem owned_of_step (hsound : session.Sound) (h : session.Owned)
    (hstep : step.buildsStyles = true) : (session.step step).1.Owned := by
  rcases makes_of_step hstep with hsame | ⟨made, hmakes, hstyles⟩
  · exact hsame.symm ▸ h
  · obtain ⟨fresh, hmade⟩ := declarations_of_makes hmakes
    -- Every entry of the new session is the new one, or it has the declaration of an old one.
    have hentry : ∀ style, (session.step step).1.HasStyle style → ∀ property v,
        (property, v) ∈ style.properties →
        property = fresh ∧ v.declaration = session.sheet.declarations.length ∨
        ∃ old w, session.HasStyle old ∧ (property, w) ∈ old.properties ∧
          w.declaration = v.declaration := by
      intro style hstyle property v hmem
      rcases hstyles style hstyle with rfl | hstyle
      · exact hmade property v hmem
      · exact .inr ⟨style, v, hstyle, hmem, rfl⟩
    have hold : ∀ old, session.HasStyle old → ∀ property w, (property, w) ∈ old.properties →
        w.declaration ≠ session.sheet.declarations.length := fun old hold property w hw =>
      Nat.ne_of_lt ((hsound old hold).declared property w hw)
    constructor
    · intro style hstyle
      rcases hstyles style hstyle with rfl | hstyle
      · exact keys_of_makes h hmakes
      · exact h.keys style hstyle
    · intro style other hstyle hother property v property' w hv hw heq
      rcases hentry style hstyle property v hv with ⟨rfl, hnew⟩ | ⟨old, v', hold', hv', hsame⟩
      · rcases hentry other hother property' w hw with ⟨rfl, -⟩ | ⟨old, w', hold', hw', hsame⟩
        · rfl
        · exact absurd (hsame.trans (heq.symm.trans hnew)) (hold old hold' property' w' hw')
      · rcases hentry other hother property' w hw with ⟨rfl, hnew⟩ | ⟨old', w', hold'', hw', hsame'⟩
        · exact absurd (hsame.trans (heq.trans hnew)) (hold old hold' property v' hv')
        · exact h.apart old old' hold' hold'' property v' property' w' hv' hw'
            (hsame.trans (heq.trans hsame'.symm))

/-! ## Binding in any order -/

theorem stepIn_eq_step (h : session.Owned) (order : Style.Order ν) (step : Step ν) :
    session.stepIn order step = session.step step := by
  cases step with
  | bindStyle name block =>
    rw [step_bindStyle, stepIn_bindStyle]
    cases hopen : session.openStyle? name with
    | none => rw [changeStyle_of_none hopen, changeStyle_of_none hopen]
    | some style =>
      have hstyle := hasStyle_of_style? (style?_of_openStyle? hopen) .self
      have hbind : style.bindIn block (order.1 style) session.sheet =
          style.bind block session.sheet :=
        Style.bindIn_eq_bind (h.keys style hstyle) (h.styleApart hstyle) (order.2 style) block
      rw [changeStyle_of_some hopen, changeStyle_of_some hopen]
      dsimp only
      rw [hbind]
  | _ => rfl

theorem runIn_eq_run (hsound : session.Sound) (h : session.Owned)
    {steps : List (Step ν × Style.Order ν)} (hsteps : ∀ step ∈ steps, step.1.buildsStyles = true) :
    session.runIn steps = session.run (steps.map Prod.fst) := by
  induction steps generalizing session with
  | nil => rfl
  | cons entry steps ih =>
    obtain ⟨step, order⟩ := entry
    have hstep : step.buildsStyles = true := hsteps _ List.mem_cons_self
    have hrest := ih (sound_of_step hstep hsound) (owned_of_step hsound h hstep)
      fun step hmem => hsteps step (List.mem_cons_of_mem _ hmem)
    rw [List.map_cons]
    unfold runIn run
    rw [stepIn_eq_step h]
    dsimp only
    rw [hrest]

end Session

/-- **The values of a tree are bound in any order.** No declaration stands under two properties, so
a binding gives one count, one style and one sheet whatever the order, and so does a run. -/
theorem bound_in_any_order {steps : List (Step ν × Style.Order ν)}
    (hsteps : ∀ step ∈ steps, step.1.buildsStyles = true) :
    let session := (Session.empty.runIn steps).1
    (∀ style other, session.HasStyle style → session.HasStyle other →
      ∀ property v property' w, (property, v) ∈ style.properties →
        (property', w) ∈ other.properties → v.declaration = w.declaration → property = property') ∧
    (∀ style, session.HasStyle style → ∀ (order : Style.Order ν) block,
      style.bindIn block (order.1 style) session.sheet = style.bind block session.sheet) ∧
    Session.empty.runIn steps = Session.empty.run (steps.map Prod.fst) := by
  have hrun := Session.runIn_eq_run Session.sound_empty Session.owned_empty hsteps
  have hplain : ∀ step ∈ steps.map Prod.fst, step.buildsStyles = true := by
    intro step hmem
    obtain ⟨entry, hentry, rfl⟩ := List.mem_map.mp hmem
    exact hsteps entry hentry
  have howned := Session.holds_of_run (P := fun session : Session ν => session.Sound ∧ session.Owned)
    (fun _ _ hstep h => ⟨Session.sound_of_step hstep h.1, Session.owned_of_step h.1 h.2 hstep⟩)
    hplain ⟨Session.sound_empty, Session.owned_empty⟩
  intro session
  have hsession : session.Owned := by
    show (Session.empty.runIn steps).1.Owned
    rw [hrun]
    exact howned.2
  refine ⟨hsession.apart, fun style hstyle order block => ?_, hrun⟩
  exact Style.bindIn_eq_bind (hsession.keys style hstyle) (hsession.styleApart hstyle)
    (order.2 style) block

/-- The values of a style from the last to the first. -/
def fromLast : Style.Order Rat :=
  ⟨fun style => (style.properties.map Prod.fst).reverse, fun _ => List.reverse_perm _⟩

/-- A box with a percentage of its own and one that it shares with the page. -/
def twoPending : List (Step Rat × Style.Order Rat) :=
  [(.root "page" .standard, fromLast), (.derive "page" .maxWidth "50%", fromLast),
    (.child "box" "page", fromLast), (.derive "box" .maxWidth "inherit", fromLast),
    (.derive "box" .top "10%", fromLast)]

theorem bound_in_any_order_fromLast :
    ∃ style, (Session.empty.runIn twoPending).1.style? "box" = some style ∧
      style.pending.length = 2 ∧
      style.bindIn ⟨1000, 400⟩ (fromLast.1 style) (Session.empty.runIn twoPending).1.sheet =
        style.bind ⟨1000, 400⟩ (Session.empty.runIn twoPending).1.sheet := by
  have hpending : ((Session.empty.runIn twoPending).1.style? "box").map (·.pending.length) =
      some 2 := by decide +kernel
  obtain ⟨style, hstyle, htwo⟩ := Option.map_eq_some_iff.mp hpending
  have hhas := Session.hasStyle_of_style? hstyle .self
  exact ⟨style, hstyle, htwo, (bound_in_any_order (by decide)).2.1 style hhas fromLast _⟩

end ComputedCss
