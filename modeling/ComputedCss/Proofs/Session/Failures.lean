import ComputedCss.Proofs.Session.Declared

/-!
# Steps that fail

A step that answers with an error leaves the values, the styles and the declarations of a session as
they were. It may have reported notices, and a derivation has added a declaration that nothing
refers to.

* `Answer.error?`: the error that a step answers with.
* `Session.Unaffected`: what an observer can compare before and after.
* `unaffected_of_step`: one step; `unaffected_of_error`: every session that a run leads to.
-/

namespace ComputedCss

variable {ν : Type}

/-- The error that a step answers with, if it fails. -/
def Answer.error? : Answer ν → Option (ValueError ν)
  | .failed error => some error
  | .effect (.error error) _ => some error
  | _ => none

theorem Answer.error?_effect {α : Type} {result : Except (ValueError ν) α} {effect : α → Effect ν}
    {now : Option (Snapshot ν)} {error : ValueError ν} :
    (Answer.effect (result.map effect) now).error? = some error ↔ result = .error error := by
  cases result with
  | error error' => simp [error?, Except.map]
  | ok a => simp [error?, Except.map]

/-! ## The log -/

theorem Log.suffix_record (log : Log) (notice : Notice) : log.keys <:+ (log.record notice).1.keys := by
  unfold Log.record
  dsimp only
  split_ifs
  · exact List.suffix_refl _
  · exact List.suffix_cons _ _

theorem Log.suffix_recordAll (log : Log) (notices : List Notice) :
    log.keys <:+ (log.recordAll notices).1.keys := by
  unfold recordAll
  show (log, ([] : List Notice)).1.keys <:+ _
  generalize (log, ([] : List Notice)) = start
  induction notices generalizing start with
  | nil => exact List.suffix_refl _
  | cons notice notices ih =>
    obtain ⟨log, shown⟩ := start
    exact (log.suffix_record notice).trans (ih ((log.record notice).1, _))

/-! ## Sessions -/

namespace Session

/-- The values and styles are the same, every declaration says the same, and the log has grown at
most. -/
structure Unaffected (before after : Session ν) : Prop where
  values : after.values = before.values
  styles : after.styles = before.styles
  sheet : after.sheet.Extends before.sheet
  log : before.log.keys <:+ after.log.keys

variable {session : Session ν} {target : Target} {v : Style.Entry ν} {name : String}
  {error : ValueError ν}

theorem Unaffected.refl (session : Session ν) : session.Unaffected session :=
  ⟨rfl, rfl, .refl _, List.suffix_refl _⟩

theorem unaffected_settle {σ α : Type} {outcome : Outcome ν σ α}
    (h : outcome.sheet.Extends session.sheet) : session.Unaffected (session.settle outcome) :=
  ⟨rfl, rfl, h, session.log.suffix_recordAll outcome.notices⟩

theorem putStyle_of_openStyle? {style : Style ν} (h : session.openStyle? name = some style) :
    session.putStyle name style = session := by
  obtain ⟨named, hnamed, hopen⟩ := Option.bind_eq_some_iff.mp h
  obtain ⟨found, isSealed⟩ := named
  cases isSealed with
  | true => exact absurd hopen (by simp)
  | false =>
    obtain rfl : found = style := Option.some.inj hopen
    unfold putStyle
    rw [put_of_lookup hnamed]

theorem replace_of_own? (h : session.own? target = some v) : session.replace target v = session := by
  cases target with
  | value name =>
    show session.putValue name v = session
    unfold putValue
    rw [put_of_lookup h]
  | property name property =>
    obtain ⟨style, hstyle, hown⟩ := Option.bind_eq_some_iff.mp h
    have hset : style.set property v = style := by
      unfold Style.set
      obtain ⟨parent, properties, config⟩ := style
      exact congrArg (Style.mk parent · config) (put_of_lookup hown)
    unfold replace
    dsimp only
    rw [hstyle]
    dsimp only
    rw [hset, putStyle_of_openStyle? hstyle]

theorem own?_settle {σ α : Type} (outcome : Outcome ν σ α) (target : Target) :
    (session.settle outcome).own? target = session.own? target := by
  cases target <;> rfl

theorem openStyle?_settle {σ α : Type} (outcome : Outcome ν σ α) (name : String) :
    (session.settle outcome).openStyle? name = session.openStyle? name := rfl

variable [Scalar ν]

theorem unaffected_operate {operation : Operation ν}
    (h : (session.operate target operation).2.error? = some error) :
    session.Unaffected (session.operate target operation).1 := by
  cases hv : session.own? target with
  | none =>
    rw [operate_of_none hv]
    exact .refl session
  | some v =>
    rw [operate_of_some hv] at h ⊢
    obtain ⟨hsubject, hsheet⟩ := Operation.unchanged_of_error (Answer.error?_effect.mp h)
    dsimp only
    rw [hsubject, replace_of_own? ((own?_settle _ target).trans hv)]
    exact unaffected_settle (hsheet.symm ▸ .refl _)

theorem writeText_of_failed {sheet : Sheet ν} {id : DeclarationId} {text : String}
    (h : (sheet.writeText id text).result = .error error) : (sheet.writeText id text).sheet = sheet := by
  unfold Sheet.writeText at h ⊢
  dsimp only at h ⊢
  split at h
  · exact absurd h (by simp)
  · rfl

theorem unaffected_writeText {text : String}
    (h : (session.step (.writeText target text)).2.error? = some error) :
    session.Unaffected (session.step (.writeText target text)).1 := by
  unfold step write at h ⊢
  dsimp only at h ⊢
  cases hv : session.read? target with
  | none => exact .refl session
  | some v =>
    rw [hv] at h
    have hsheet := writeText_of_failed (Answer.error?_effect.mp h)
    exact unaffected_settle (hsheet.symm ▸ .refl _)

theorem derive_of_failed {style : Style ν} {property : Property} {text : String} {sheet : Sheet ν}
    (h : (style.derive property text sheet).result = .error error) :
    (style.derive property text sheet).subject = style ∧
      (style.derive property text sheet).sheet.Extends sheet := by
  have hderives := Style.derives property text style sheet
  generalize style.derive property text sheet = outcome at hderives h ⊢
  cases hderives with
  | unreadable error' notices hparse => exact ⟨rfl, .refl sheet⟩
  | failed declaration settled error' notices hpass hresult =>
    refine ⟨rfl, ?_⟩
    cases hpass with
    | failed => exact Style.extends_drawn (.refl sheet)
    | unchanged | resolved | deferred => exact absurd hresult (by simp)
  | set declaration settled resolution notices hpass hresult => exact absurd h (by simp)

theorem unaffected_derive {property : Property} {text : String}
    (h : (session.step (.derive name property text)).2.error? = some error) :
    session.Unaffected (session.step (.derive name property text)).1 := by
  rw [step_derive] at h ⊢
  cases hopen : session.openStyle? name with
  | none =>
    rw [changeStyle_of_none hopen]
    exact .refl session
  | some style =>
    rw [changeStyle_of_some hopen] at h ⊢
    obtain ⟨hsubject, hsheet⟩ := derive_of_failed (Answer.error?_effect.mp h)
    dsimp only
    rw [hsubject, putStyle_of_openStyle? ((openStyle?_settle _ name).trans hopen)]
    exact unaffected_settle hsheet

/-- **A step that fails leaves the session as it is.** -/
theorem unaffected_of_step {step : Step ν} (h : (session.step step).2.error? = some error) :
    session.Unaffected (session.step step).1 := by
  cases step with
  | resolveAgainst | resolve | bind | setNumber | setString | setText =>
    rw [step_of_operation? rfl] at h ⊢
    exact unaffected_operate h
  | derive name property text => exact unaffected_derive h
  | writeText target text => exact unaffected_writeText h
  | new name text config context =>
    unfold Session.step declareText at h ⊢
    dsimp only at h ⊢
    split at h
    · exact absurd h (by simp [declare, store, Answer.error?])
    · exact ⟨rfl, rfl, .refl _, Log.suffix_recordAll _ _⟩
  | bindStyle name block =>
    -- Binding a style does not fail.
    rw [step_bindStyle] at h ⊢
    cases hopen : session.openStyle? name with
    | none =>
      rw [changeStyle_of_none hopen]
      exact .refl session
    | some style =>
      have hresult : (style.bind block session.sheet).result = _ :=
        (Style.bindEach_spec block style.properties session.sheet).1
      rw [changeStyle_of_some hopen] at h
      dsimp only at h
      rw [hresult] at h
      exact absurd h (by simp [answerOf, Answer.error?])
  | wrap | copy | segments | writePrimitive =>
    -- These fail only if there is no value to look at.
    simp only [Session.step, wrap, copy, segments, write] at h ⊢
    split at h
    · exact .refl session
    · exact absurd h (by simp [store, Answer.error?, Except.map])
  | child name parent =>
    cases hstyle : session.style? parent with
    | none =>
      rw [step_child_of_none hstyle]
      exact .refl session
    | some style =>
      rw [step_child_of_some hstyle] at h
      exact absurd h (by simp [Answer.error?])
  | insert name property source =>
    unfold Session.step insert at h ⊢
    dsimp only at h ⊢
    split at h
    · exact absurd h (by simp [Answer.error?])
    · exact .refl session
  | newFrom | root | report | wasReported | clearReports =>
    exact absurd h (by simp [step, declare, store, Answer.error?])
  | pending name | styleInfo name | parentValue name property =>
    exact (viewStyle_fst session name _).symm ▸ .refl session
  | snapshot target | inspect target | numberIn target type | item target index
  | sameDeclaration target other | contextValue target property | describe target =>
    exact (view_fst session target _).symm ▸ .refl session

end Session

variable [Scalar ν]

/-- **What fails leaves everything as it was.** Every value of a run stands over a declaration of the
sheet. If a step is answered with an error, or an operation on one of the values with any style as
the parent, or a text written to any declaration, then the values, the styles and the declarations
are those of before, and the log has grown at most. -/
theorem unaffected_of_error (steps : List (Step ν)) :
    let session := (Session.empty.run steps).1
    (∀ v, session.Holds v → v.declaration < session.sheet.declarations.length) ∧
    (∀ step error, (session.step step).2.error? = some error →
      session.Unaffected (session.step step).1) ∧
    (∀ target (operation : Operation ν) error,
      (session.operate target operation).2.error? = some error →
        session.Unaffected (session.operate target operation).1) ∧
    ∀ id text error, (session.sheet.writeText id text).result = .error error →
      (session.sheet.writeText id text).sheet = session.sheet := by
  intro session
  refine ⟨Session.declared_of_run steps, ?_, ?_, ?_⟩
  · intro step error h
    exact Session.unaffected_of_step h
  · intro target operation error h
    exact Session.unaffected_operate h
  · intro id text error h
    exact Session.writeText_of_failed h

/-- A percentage under two holders, one of which waits for layout, and a box in a page whose line
height is no number. -/
def halfInPage : List (Step Rat) :=
  [.new "half" "50%" .standard none, .wrap "shared" (.value "half") .standard none,
    .resolve (.value "half") .height, .root "page" .standard, .derive "page" .lineHeight "normal",
    .child "box" "page", .wrap "inBox" (.value "half") .standard (some "page"),
    .insert "box" .verticalAlign "inBox"]

/-- Steps that fail over a style, over a state, over a kind of value and over a text. -/
def failingSteps : List (Step Rat) :=
  [.resolveAgainst "half" .verticalAlign (some "page"), .bind (.value "shared") ⟨1000, 400⟩,
    .setString (.value "half") "half", .writeText (.value "shared") "url(",
    .setText (.property "box" .verticalAlign) "", .derive "box" .verticalAlign "50%"]

theorem unaffected_of_error_halfInPage :
    let session := (Session.empty.run halfInPage).1
    ∀ step ∈ failingSteps, (session.step step).2.error?.isSome = true ∧
      session.Unaffected (session.step step).1 := by
  intro session step hmem
  have hfails : ∀ step ∈ failingSteps,
      ((Session.empty.run halfInPage).1.step step).2.error?.isSome = true := by decide +kernel
  obtain ⟨error, herror⟩ := Option.isSome_iff_exists.mp (hfails step hmem)
  obtain ⟨-, hsteps, -⟩ := unaffected_of_error halfInPage
  exact ⟨hfails step hmem, hsteps step error herror⟩

end ComputedCss
