import ComputedCss.Proofs.Session.Trees
import ComputedCss.Proofs.Style.Steady

/-!
# Building a tree of styles

What a step that builds styles can do is said once. What holds of every value that a tree stores is
then a property of the values that the steps set.

* `Session.makes_of_step`: a step makes one style at most, and the others stay as they are.
* `Session.Stores`: every value that the styles of a session store has a property.
* `Lasting`, `stores_of_step`: deriving keeps the properties that hold of what has been resolved.
* `steady_of_run`, `current_of_run`: the values of a tree are steady, and before layout current.
-/

namespace ComputedCss

variable {ν : Type}

/-- The step makes a style, or derives a property of one. -/
def Step.derivesStyles : Step ν → Bool
  | .root _ _ | .child _ _ | .derive _ _ _ => true
  | _ => false

theorem Step.buildsStyles_of_derivesStyles {step : Step ν} (h : step.derivesStyles = true) :
    step.buildsStyles = true := by
  cases step with
  | root | child | derive => rfl
  | _ => exact absurd h Bool.false_ne_true

variable [Scalar ν]

theorem Style.parent_derive (property : Property) (text : String) (style : Style ν)
    (sheet : Sheet ν) : (style.derive property text sheet).subject.parent = style.parent :=
  (Style.links_derive property text style sheet).1

theorem Style.own?_derive_of_ne {property other : Property} (h : other ≠ property) (text : String)
    (style : Style ν) (sheet : Sheet ν) :
    (style.derive property text sheet).subject.own? other = style.own? other := by
  have hderives := Style.derives property text style sheet
  generalize style.derive property text sheet = outcome at hderives ⊢
  cases hderives with
  | unreadable error notices hparse => rfl
  | failed declaration settled error notices hpass hresult => rfl
  | set declaration settled resolution notices hpass hresult =>
    exact Style.own?_set_of_ne h style settled.subject

theorem ComputedValue.config_bound (v : Style.Entry ν) (block : ContainingBlock ν) :
    (v.bound block).config = v.config := by
  unfold ComputedValue.bound
  split
  · rfl
  · rfl

theorem Style.get_bindEach {sheet : Sheet ν} {id : DeclarationId}
    (hid : id < sheet.declarations.length) (block : ContainingBlock ν)
    (entries : List (Property × Style.Entry ν)) :
    (Style.bindEach block entries sheet).sheet.get id = sheet.get id ∨
    ∃ pixels, (Style.bindEach block entries sheet).sheet.get id =
      .ofPrimitive (.numeric pixels .px) := by
  induction entries generalizing sheet with
  | nil => exact .inl rfl
  | cons entry rest ih =>
    obtain ⟨property, v⟩ := entry
    cases hv : v.isPending with
    | true =>
      obtain ⟨pixels, hbind⟩ := Style.bindEach_of_isPending hv block property rest sheet
      let written := sheet.write v.declaration (.ofPrimitive (.numeric pixels .px))
      have hwritten : id < written.declarations.length :=
        Nat.lt_of_lt_of_eq hid List.length_set.symm
      rw [hbind]
      show (Style.bindEach block rest written).sheet.get id = sheet.get id ∨
        ∃ pixels, (Style.bindEach block rest written).sheet.get id =
          .ofPrimitive (.numeric pixels .px)
      rcases ih hwritten with hrest | hpixels
      · by_cases hsame : id = v.declaration
        · refine .inr ⟨pixels, hrest.trans ?_⟩
          rw [hsame]
          exact Sheet.get_write_self (hsame ▸ hid) _
        · exact .inl (hrest.trans (Sheet.get_write_of_ne hsame _))
      · exact .inr hpixels
    | false =>
      rw [Style.bindEach_of_not_isPending hv]
      exact ih hid

namespace Session

/-! ## What a step makes -/

/-- The styles that a step can make, each with the sheet on which it then stands. -/
inductive Makes (session : Session ν) : Step ν → Style ν → Sheet ν → Prop
  | root (name config) : Makes session (.root name config)
    (Style.root config session.sheet).1 (Style.root config session.sheet).2
  | child (name parent style) : session.HasStyle style →
    Makes session (.child name parent) style.childOf session.sheet
  | derive (name property text style) : session.HasStyle style →
    Makes session (.derive name property text) (style.derive property text session.sheet).subject
      (style.derive property text session.sheet).sheet
  | bind (name block style) : session.HasStyle style →
    Makes session (.bindStyle name block) (style.bind block session.sheet).subject
      (style.bind block session.sheet).sheet

variable {session : Session ν} {step : Step ν} {made style : Style ν} {sheet : Sheet ν}
  {name : String}

omit [Scalar ν] in
theorem changeStyle_of_none {α : Type} {operation : Style ν → Sheet ν → Outcome ν (Style ν) α}
    {answer : Session ν → Except (ValueError ν) α → Answer ν}
    (hopen : session.openStyle? name = none) :
    session.changeStyle name operation answer = (session, .absent) := by
  unfold changeStyle
  rw [hopen]

omit [Scalar ν] in
theorem changeStyle_of_some {α : Type} {operation : Style ν → Sheet ν → Outcome ν (Style ν) α}
    {answer : Session ν → Except (ValueError ν) α → Answer ν}
    (hopen : session.openStyle? name = some style) :
    session.changeStyle name operation answer =
      let outcome := operation style session.sheet
      let changed := (session.settle outcome).putStyle name outcome.subject
      (changed, answer changed outcome.result) := by
  unfold changeStyle
  rw [hopen]

omit [Scalar ν] in
theorem hasStyle_changed {α : Type} {outcome : Outcome ν (Style ν) α} {ancestor : Style ν}
    (hopen : session.openStyle? name = some style)
    (hparent : outcome.subject.parent = style.parent)
    (h : ((session.settle outcome).putStyle name outcome.subject).HasStyle ancestor) :
    ancestor = outcome.subject ∨ session.HasStyle ancestor := by
  rcases hasStyle_put h with hline | h
  · rcases Style.lineage_of_parent_eq hparent hline with rfl | hline
    · exact .inl rfl
    · exact .inr (hasStyle_of_style? (style?_of_openStyle? hopen) hline)
  · exact .inr h

omit [Scalar ν] in
theorem openStyle?_putStyle_self (session : Session ν) (name : String) (style : Style ν) :
    (session.putStyle name style).openStyle? name = some style := by
  unfold openStyle? putStyle
  rw [lookup_put_self]
  rfl

theorem step_child_of_none {parent : String} (hstyle : session.style? parent = none) :
    session.step (.child name parent) = (session, .absent) := by
  rw [step, hstyle]

theorem step_child_of_some {parent : String} (hstyle : session.style? parent = some style) :
    session.step (.child name parent) =
      ((session.sealStyle parent).putStyle name style.childOf, .done) := by
  rw [step, hstyle]

/-- The answer to a derivation: what it did, and the value of the property after it. -/
def derived (name : String) (property : Property) (session : Session ν)
    (result : Except (ValueError ν) (Resolution ν)) : Answer ν :=
  .effect (result.map .resolution)
    (((session.style? name).bind (Style.lookup? property)).map session.snapshot)

omit [Scalar ν] in
theorem derived_putStyle (session : Session ν) (name : String) (style : Style ν)
    (property : Property) (result : Except (ValueError ν) (Resolution ν)) :
    derived name property (session.putStyle name style) result =
      .effect (result.map .resolution)
        ((style.lookup? property).map (session.putStyle name style).snapshot) := by
  unfold derived
  rw [style?_of_openStyle? (openStyle?_putStyle_self session name style)]
  rfl

theorem step_derive (session : Session ν) (name : String) (property : Property) (text : String) :
    session.step (.derive name property text) =
      session.changeStyle name (·.derive property text ·) (derived name property) := rfl

theorem step_bindStyle (session : Session ν) (name : String) (block : ContainingBlock ν) :
    session.step (.bindStyle name block) =
      session.changeStyle name (·.bind block ·) fun _ result => answerOf result .count := rfl

/-- A step that builds styles makes one at most, and leaves the others as they are. -/
theorem makes_of_step (hstep : step.buildsStyles = true) :
    (session.step step).1 = session ∨
    ∃ made, session.Makes step made (session.step step).1.sheet ∧
      ∀ style, (session.step step).1.HasStyle style → style = made ∨ session.HasStyle style := by
  cases step with
  | root name config =>
    refine .inr ⟨_, .root name config, fun style hstyle => ?_⟩
    rcases hasStyle_put hstyle with hline | hstyle
    · rcases hline.self_or_parent with rfl | ⟨parent, hparent, -⟩
      · exact .inl rfl
      · exact absurd hparent (by simp)
    · exact .inr hstyle
  | child name parent =>
    cases hstyle : session.style? parent with
    | none => exact .inl (congrArg Prod.fst (step_child_of_none hstyle))
    | some style =>
      have hsheet : (session.sealStyle parent).sheet = session.sheet :=
        sealStyle_sheet session parent
      have hmakes : session.Makes (.child name parent) style.childOf session.sheet :=
        .child name parent style (hasStyle_of_style? hstyle .self)
      rw [step_child_of_some hstyle]
      refine .inr ⟨style.childOf, hsheet.symm ▸ hmakes, fun ancestor hancestor => ?_⟩
      rcases hasStyle_put hancestor with hline | hancestor
      · rcases Style.lineage_childOf hline with rfl | hline
        · exact .inl rfl
        · exact .inr (hasStyle_of_style? hstyle hline)
      · exact .inr (hasStyle_sealStyle hancestor)
  | derive name property text =>
    cases hopen : session.openStyle? name with
    | none => exact .inl (congrArg Prod.fst (changeStyle_of_none hopen))
    | some style =>
      have hhas := hasStyle_of_style? (style?_of_openStyle? hopen) .self
      rw [step_derive, changeStyle_of_some hopen]
      exact .inr ⟨_, .derive name property text style hhas, fun ancestor =>
        hasStyle_changed hopen (Style.parent_derive property text style session.sheet)⟩
  | bindStyle name block =>
    cases hopen : session.openStyle? name with
    | none => exact .inl (congrArg Prod.fst (changeStyle_of_none hopen))
    | some style =>
      have hhas := hasStyle_of_style? (style?_of_openStyle? hopen) .self
      rw [step_bindStyle, changeStyle_of_some hopen]
      exact .inr ⟨_, .bind name block style hhas, fun ancestor => hasStyle_changed hopen rfl⟩
  | _ => exact absurd hstep Bool.false_ne_true

omit [Scalar ν] in
theorem snapshot_of_alike {session session' : Session ν} {v v' : Option (Style.Entry ν)}
    (h : Option.Rel (ComputedValue.Alike session.sheet session'.sheet) v v') :
    v'.map session'.snapshot = v.map session.snapshot := by
  cases h with
  | none => rfl
  | some h => exact congrArg some (congrArg₂ Snapshot.mk h.text h.state)

theorem holds_of_run {P : Session ν → Prop} {allowed : Step ν → Bool}
    (hkeeps : ∀ session step, allowed step = true → P session → P (session.step step).1)
    {steps : List (Step ν)} (hsteps : ∀ step ∈ steps, allowed step = true) (h : P session) :
    P (session.run steps).1 := by
  induction steps generalizing session with
  | nil => exact h
  | cons step steps ih =>
    have hstep := hkeeps session step (hsteps step List.mem_cons_self) h
    exact ih (fun step hmem => hsteps step (List.mem_cons_of_mem _ hmem)) hstep

/-! ## What a tree stores -/

omit [Scalar ν] in
theorem HasStyle.of_lineage {ancestor : Style ν} (h : session.HasStyle style)
    (hline : style.Lineage ancestor) : session.HasStyle ancestor := by
  obtain ⟨name, named, hmem, hstyle⟩ := h
  exact ⟨name, named, hmem, hstyle.trans hline⟩

/-- Every value that a style of the session stores has a property, which may depend on where it is
stored. -/
def Stores (P : Property → Sheet ν → Style.Entry ν → Prop) (session : Session ν) : Prop :=
  ∀ style, session.HasStyle style → ∀ property v, (property, v) ∈ style.properties →
    P property session.sheet v

variable {P : Property → Sheet ν → Style.Entry ν → Prop}

omit [Scalar ν] in
theorem stores_empty : (empty : Session ν).Stores P := by
  rintro style ⟨name, named, hmem, -⟩
  exact absurd hmem List.not_mem_nil

end Session

/-- A property of stored values that what has been resolved has, that lasts as long as the
declaration, and that leaves nothing to compute but a percentage for layout. -/
structure ComputedValue.Lasting (P : Property → Sheet ν → Style.Entry ν → Prop) : Prop where
  settled : ∀ (parent : Option (Style ν)) property (v : Style.Entry ν) sheet, v.IsRead sheet →
    v.declaration < sheet.declarations.length → ∀ resolution,
    (Style.settle parent property v sheet).result = .ok resolution →
      P property (Style.settle parent property v sheet).sheet
        (Style.settle parent property v sheet).subject
  congr : ∀ property (v : Style.Entry ν) sheet later,
    later.get v.declaration = sheet.get v.declaration → P property sheet v → P property later v
  steady : ∀ property (v : Style.Entry ν) sheet, P property sheet v → v.Steady property sheet

namespace ComputedValue

theorem lasting_steady : Lasting (ν := ν) fun property sheet v => v.Steady property sheet where
  settled _ _ _ _ hv hdeclared _ hresult := Style.steady_settle hv hdeclared hresult
  congr _ _ _ _ hget h := (steady_congr rfl hget).mpr h
  steady _ _ _ h := h

theorem lasting_current (hfloor : ∀ x : ν, Scalar.floor (Scalar.floor x) = Scalar.floor x) :
    Lasting (ν := ν) fun property sheet v => v.Current property sheet where
  settled _ _ _ _ hv hdeclared _ hresult := Style.current_settle hfloor hv hdeclared hresult
  congr _ _ _ _ hget h := (current_congr hget).mpr h
  steady _ _ _ h := h.steady

end ComputedValue

open ComputedValue (Lasting)

namespace Session

variable {session : Session ν} {step : Step ν} {made style : Style ν} {sheet : Sheet ν}
  {P : Property → Sheet ν → Style.Entry ν → Prop}

theorem handsSteady (hP : Lasting P) (hsound : session.Sound) (h : session.Stores P)
    (hstyle : session.HasStyle style) : Style.HandsSteady session.sheet style.parent := by
  intro property w hw
  obtain ⟨ancestor, hline, hmem⟩ := Style.mem_of_parentLookup? hw
  have hancestor := hstyle.of_lineage hline
  exact ⟨(hsound ancestor hancestor).declared property w hmem,
    hP.steady property w _ (h ancestor hancestor property w hmem)⟩

theorem extends_of_makes (hP : Lasting P) (hsound : session.Sound) (h : session.Stores P)
    (hstep : step.derivesStyles = true) (hmakes : session.Makes step made sheet) :
    sheet.Extends session.sheet := by
  cases hmakes with
  | root name config =>
    have hadd := session.sheet.extends_add
      (.ofPrimitive (.numeric config.defaultFontSize .px))
    exact ⟨hadd.length, hadd.get⟩
  | child name parent style hstyle => exact .refl session.sheet
  | derive name property text style hstyle =>
    exact Style.extends_derive (handsSteady hP hsound h hstyle) property text
  | bind name block style hstyle => exact absurd hstep Bool.false_ne_true

theorem stores_of_makes (hP : Lasting P) (hsound : session.Sound) (h : session.Stores P)
    (hstep : step.derivesStyles = true) (hmakes : session.Makes step made sheet)
    {property : Property} {v : Style.Entry ν} (hmem : (property, v) ∈ made.properties) :
    P property sheet v := by
  have hextends := extends_of_makes hP hsound h hstep hmakes
  cases hmakes with
  | root name config =>
    -- The font size of a root is in pixels, so it is as if it had been resolved.
    let size : Declaration ν := .ofPrimitive (.numeric config.defaultFontSize .px)
    let read : Style.Entry ν × Sheet ν := ComputedValue.ofDeclaration (session.sheet.add size).1 none
      config (session.sheet.add size).2
    obtain ⟨rfl, rfl⟩ := Prod.mk.inj (List.mem_singleton.mp hmem)
    have hclosed : read.1.requiresComputation = false := by
      show (Computation.ofValue config
        ((session.sheet.add size).2.get (session.sheet.add size).1).value).isOpen = false
      rw [Sheet.get_add_self]
      rfl
    have hsettle : Style.settle none .fontSize read.1 read.2 = ⟨.ok .unchanged, read.1, read.2, []⟩ :=
      Style.settle_of_closed hclosed none .fontSize read.2
    have hread := hP.settled none .fontSize read.1 read.2
      (ComputedValue.isRead_ofDeclaration _ _ _ _) (session.sheet.declared_add size) .unchanged
      (congrArg Outcome.result hsettle)
    rw [hsettle] at hread
    exact hread
  | child name parent style hstyle => exact absurd hmem List.not_mem_nil
  | derive name other text style hstyle =>
    have hdeclared := (handsSteady hP hsound h hstyle).declares
    have hold : ∀ {property v}, (property, v) ∈ style.properties →
        P property (style.derive other text session.sheet).sheet v := fun {property v} hmem =>
      hP.congr property v _ _
        (hextends.get _ ((hsound style hstyle).declared property v hmem))
        (h style hstyle property v hmem)
    rcases Style.sets_derive hdeclared
      (fun v sheet => hP.settled style.parent other v sheet) text with hkept | ⟨w, hset, hw⟩
    · rw [hkept] at hmem
      exact hold hmem
    · rw [hset] at hmem
      rcases mem_put hmem with heq | hmem
      · obtain ⟨rfl, rfl⟩ := Prod.mk.inj heq
        exact hw
      · exact hold hmem
  | bind name block style hstyle => exact absurd hstep Bool.false_ne_true

theorem stores_of_step (hP : Lasting P) (hsound : session.Sound) (h : session.Stores P)
    (hstep : step.derivesStyles = true) : (session.step step).1.Stores P := by
  rcases makes_of_step (Step.buildsStyles_of_derivesStyles hstep) with
    hsame | ⟨made, hmakes, hstyles⟩
  · exact hsame.symm ▸ h
  · intro style hstyle property v hmem
    rcases hstyles style hstyle with rfl | hstyle
    · exact stores_of_makes hP hsound h hstep hmakes hmem
    · have hdeclared := (hsound style hstyle).declared property v hmem
      exact hP.congr property v _ _ ((extends_of_makes hP hsound h hstep hmakes).get _ hdeclared)
        (h style hstyle property v hmem)

/-! ## Binding -/

theorem get_of_makes_bind {block : ContainingBlock ν}
    (hmakes : session.Makes (.bindStyle name block) made sheet) :
    (∃ bound, session.HasStyle bound ∧
      made.properties = bound.properties.map (Prod.map id (·.bound block))) ∧
    ∀ id, id < session.sheet.declarations.length → sheet.get id = session.sheet.get id ∨
      ∃ pixels, sheet.get id = .ofPrimitive (.numeric pixels .px) := by
  cases hmakes with
  | bind name block style hstyle =>
    exact ⟨⟨style, hstyle, (Style.bindEach_spec block style.properties session.sheet).2⟩,
      fun id hid => Style.get_bindEach hid block style.properties⟩

theorem steady_of_step (hsound : session.Sound)
    (h : session.Stores fun property sheet v => v.Steady property sheet)
    (hstep : step.buildsStyles = true) :
    (session.step step).1.Stores fun property sheet v => v.Steady property sheet := by
  cases step with
  | root | child | derive => exact stores_of_step ComputedValue.lasting_steady hsound h rfl
  | bindStyle name block =>
    rcases makes_of_step hstep with hsame | ⟨made, hmakes, hstyles⟩
    · exact hsame.symm ▸ h
    · obtain ⟨⟨bound, hbound, hmade⟩, hget⟩ := get_of_makes_bind hmakes
      -- A value of the old session is still steady, whatever has been written to its declaration.
      have hold : ∀ style, session.HasStyle style → ∀ property v, (property, v) ∈ style.properties →
          v.Steady property (session.step (.bindStyle name block)).1.sheet := by
        intro style hstyle property v hmem
        rcases hget v.declaration ((hsound style hstyle).declared property v hmem) with
          hsame | ⟨pixels, hpixels⟩
        · exact (ComputedValue.steady_congr rfl hsame).mpr (h style hstyle property v hmem)
        · exact ComputedValue.steady_of_pixels hpixels
      intro style hstyle property v hmem
      rcases hstyles style hstyle with rfl | hstyle
      · rw [hmade] at hmem
        obtain ⟨⟨other, w⟩, hw, heq⟩ := List.mem_map.mp hmem
        obtain ⟨rfl, rfl⟩ := Prod.mk.inj heq
        refine (ComputedValue.steady_congr (ComputedValue.config_bound w block) ?_).mpr
          (hold bound hbound other w hw)
        rw [ComputedValue.declaration_bound]
      · exact hold style hstyle property v hmem
  | _ => exact absurd hstep Bool.false_ne_true

/-! ## Runs -/

theorem steady_of_run {steps : List (Step ν)} (hsteps : ∀ step ∈ steps, step.buildsStyles = true) :
    (empty.run steps).1.Sound ∧
      (empty.run steps).1.Stores fun property sheet v => v.Steady property sheet :=
  holds_of_run (P := fun session => session.Sound ∧
      session.Stores fun property sheet v => v.Steady property sheet)
    (fun _ _ hstep h => ⟨sound_of_step hstep h.1, steady_of_step h.1 h.2 hstep⟩) hsteps
    ⟨sound_empty, stores_empty⟩

theorem current_of_run (hfloor : ∀ x : ν, Scalar.floor (Scalar.floor x) = Scalar.floor x)
    {steps : List (Step ν)} (hsteps : ∀ step ∈ steps, step.derivesStyles = true) :
    (empty.run steps).1.Sound ∧
      (empty.run steps).1.Stores fun property sheet v => v.Current property sheet :=
  holds_of_run (P := fun session => session.Sound ∧
      session.Stores fun property sheet v => v.Current property sheet)
    (fun _ _ hstep h => ⟨sound_of_step (Step.buildsStyles_of_derivesStyles hstep) h.1,
      stores_of_step (ComputedValue.lasting_current hfloor) h.1 h.2 hstep⟩) hsteps
    ⟨sound_empty, stores_empty⟩

end Session

end ComputedCss
