import ComputedCss.Proofs.Session.Writing

/-!
# Styles among all steps

A session changes its styles also by resolving and writing their values, and by moving values into
them. What styles a session has after a step follows from what it had before.

* `Style.Follows`: the ways in which a style comes about.
* `Session.follows_of_step`: one step.
* `Session.forall_hasStyle_of_run`: a run.
* `Session.keys_of_run`: no style has two values of one property.
-/

namespace ComputedCss

variable {ν : Type} [Scalar ν]

/-- The styles that follow from some others: a root, a child without values, or one of them with a
value set or with its pending values bound. -/
inductive Style.Follows (Had : Style ν → Prop) : Style ν → Prop
  | had {style} : Had style → Follows Had style
  | root (config sheet) : Follows Had (root config sheet).1
  | child {style} : Had style → Follows Had style.childOf
  | set {style} (property v) : Had style → Follows Had (style.set property v)
  | bound {style} (block sheet) : Had style → Follows Had (style.bind block sheet).subject

open Style (Follows)

theorem Style.Follows.keys {Had : Style ν → Prop}
    (hhad : ∀ style, Had style → (style.properties.map Prod.fst).Nodup) {style : Style ν}
    (h : Follows Had style) : (style.properties.map Prod.fst).Nodup := by
  cases h with
  | had h => exact hhad _ h
  | root config sheet => exact List.nodup_cons.mpr ⟨List.not_mem_nil, List.nodup_nil⟩
  | child h => exact List.nodup_nil
  | set property v h => exact nodup_put (hhad _ h) property v
  | @bound style block sheet h =>
    show ((Style.bindEach block style.properties sheet).subject.map Prod.fst).Nodup
    rw [(Style.bindEach_spec block style.properties sheet).2, keys_map]
    exact hhad _ h

namespace Session

variable {session : Session ν} {style made ancestor : Style ν} {name : String} {target : Target}

/-! ## Parts of a step -/

omit [Scalar ν] in
theorem hasStyle_takeContext {context : Option String}
    (h : (session.takeContext context).2.HasStyle style) : session.HasStyle style := by
  cases context with
  | none => exact h
  | some name => exact hasStyle_sealStyle h

theorem hasStyle_declare {declaration : Declaration ν} {config : Config ν}
    {context : Option String}
    (h : (session.declare name declaration config context).1.HasStyle style) :
    session.HasStyle style :=
  hasStyle_takeContext h

theorem follows_putStyle (hstyle : session.HasStyle style) (hmade : Follows session.HasStyle made)
    (hparent : made.parent = style.parent) (h : (session.putStyle name made).HasStyle ancestor) :
    Follows session.HasStyle ancestor := by
  rcases hasStyle_put h with hline | h
  · rcases Style.lineage_of_parent_eq hparent hline with rfl | hline
    · exact hmade
    · exact .had (hstyle.of_lineage hline)
  · exact .had h

omit [Scalar ν] in
theorem hasStyle_of_openStyle? (h : session.openStyle? name = some style) :
    session.HasStyle style :=
  hasStyle_of_style? (style?_of_openStyle? h) .self

theorem follows_operate {operation : Operation ν}
    (h : (session.operate target operation).1.HasStyle ancestor) :
    Follows session.HasStyle ancestor := by
  cases hv : session.own? target with
  | none =>
    rw [operate_of_none hv] at h
    exact .had h
  | some v =>
    rw [operate_of_some hv] at h
    cases target with
    | value name => exact .had h
    | property name property =>
      obtain ⟨style, hopen, -⟩ := Option.bind_eq_some_iff.mp hv
      have hstyle := hasStyle_of_openStyle? hopen
      let outcome := operation.on v session.sheet
      have hreplace : (session.settle outcome).replace (.property name property) outcome.subject =
          (session.settle outcome).putStyle name (style.set property outcome.subject) := by
        unfold replace
        dsimp only
        rw [show (session.settle outcome).openStyle? name = some style from hopen]
      change ((session.settle outcome).replace _ outcome.subject).HasStyle ancestor at h
      rw [hreplace] at h
      exact follows_putStyle hstyle (.set property outcome.subject hstyle) rfl h

theorem follows_changeStyle {α : Type} {operation : Style ν → Sheet ν → Outcome ν (Style ν) α}
    {answer : Session ν → Except (ValueError ν) α → Answer ν}
    (hoperation : ∀ style, session.HasStyle style →
      (operation style session.sheet).subject.parent = style.parent ∧
        Follows session.HasStyle (operation style session.sheet).subject)
    (h : (session.changeStyle name operation answer).1.HasStyle ancestor) :
    Follows session.HasStyle ancestor := by
  cases hopen : session.openStyle? name with
  | none =>
    rw [changeStyle_of_none hopen] at h
    exact .had h
  | some style =>
    rw [changeStyle_of_some hopen] at h
    have hstyle := hasStyle_of_openStyle? hopen
    obtain ⟨hparent, hmade⟩ := hoperation style hstyle
    exact follows_putStyle hstyle hmade hparent h

theorem follows_derive (hstyle : session.HasStyle style) (property : Property) (text : String) :
    Follows session.HasStyle (style.derive property text session.sheet).subject := by
  have hderives := Style.derives property text style session.sheet
  generalize style.derive property text session.sheet = outcome at hderives ⊢
  cases hderives with
  | unreadable error notices hparse => exact .had hstyle
  | failed declaration settled error notices hpass hresult => exact .had hstyle
  | set declaration settled resolution notices hpass hresult => exact .set property _ hstyle

theorem follows_of_makes {step : Step ν} {sheet : Sheet ν}
    (hmakes : session.Makes step made sheet) : Follows session.HasStyle made := by
  cases hmakes with
  | root name config => exact .root config session.sheet
  | child name parent style hstyle => exact .child hstyle
  | derive name property text style hstyle => exact follows_derive hstyle property text
  | bind name block style hstyle => exact .bound block session.sheet hstyle

theorem follows_insert {property : Property} {source : String}
    (h : (session.insert name property source).1.HasStyle ancestor) :
    Follows session.HasStyle ancestor := by
  unfold insert at h
  split at h
  · rename_i style v hopen hv
    have hstyle := hasStyle_of_openStyle? hopen
    exact follows_putStyle hstyle (.set property v hstyle) rfl h
  · exact .had h

/-! ## Steps and runs -/

/-- **What styles a session has after a step follows from what it had before.** -/
theorem follows_of_step (step : Step ν) (h : (session.step step).1.HasStyle ancestor) :
    Follows session.HasStyle ancestor := by
  cases step with
  | resolveAgainst | resolve | bind | setNumber | setString | setText =>
    rw [step_of_operation? rfl] at h
    exact follows_operate h
  | new name text config context =>
    unfold Session.step declareText at h
    dsimp only at h
    split at h
    · have hold := hasStyle_declare h
      exact .had hold
    · exact .had h
  | newFrom name value config context => exact .had (hasStyle_declare h)
  | wrap name target config context =>
    unfold Session.step wrap at h
    dsimp only at h
    split at h
    · exact .had h
    · exact .had (hasStyle_takeContext h)
  | copy name target =>
    unfold Session.step copy at h
    dsimp only at h
    split at h <;> exact .had h
  | segments target =>
    unfold Session.step segments at h
    dsimp only at h
    split at h <;> exact .had h
  | writeText target text =>
    unfold Session.step write at h
    dsimp only at h
    split at h <;> exact .had h
  | writePrimitive target primitive =>
    unfold Session.step write at h
    dsimp only at h
    split at h <;> exact .had h
  | root name config =>
    rcases hasStyle_put h with hline | h
    · rcases hline.self_or_parent with rfl | ⟨parent, hparent, -⟩
      · exact .root config session.sheet
      · exact absurd hparent (by simp)
    · exact .had h
  | child name parent =>
    cases hstyle : session.style? parent with
    | none =>
      rw [step_child_of_none hstyle] at h
      exact .had h
    | some style =>
      rw [step_child_of_some hstyle] at h
      rcases hasStyle_put h with hline | h
      · rcases Style.lineage_childOf hline with rfl | hline
        · exact .child (hasStyle_of_style? hstyle .self)
        · exact .had (hasStyle_of_style? hstyle hline)
      · exact .had (hasStyle_sealStyle h)
  | derive name property text =>
    exact follows_changeStyle (fun style hstyle =>
      ⟨Style.parent_derive property text style session.sheet,
        follows_derive hstyle property text⟩) h
  | insert name property source => exact follows_insert h
  | bindStyle name block =>
    exact follows_changeStyle (fun style hstyle => ⟨rfl, .bound block session.sheet hstyle⟩) h
  | pending | styleInfo | parentValue =>
    refine .had ?_
    have hsame := viewStyle_fst session
    exact hsame _ _ ▸ h
  | report | wasReported | clearReports => exact .had h
  | snapshot | inspect | numberIn | item | sameDeclaration | contextValue | describe =>
    refine .had ?_
    have hsame := view_fst session
    exact hsame _ _ ▸ h

/-- What holds of roots and of children without values, and is kept by setting and by binding, holds
of every style that a run leaves behind. -/
theorem forall_hasStyle_of_run {P : Style ν → Prop}
    (hP : ∀ Had : Style ν → Prop, (∀ style, Had style → P style) → ∀ style, Follows Had style → P style)
    (steps : List (Step ν)) (hstyle : (empty.run steps).1.HasStyle style) : P style := by
  have hall : ∀ step ∈ steps, (fun _ : Step ν => true) step = true := fun _ _ => rfl
  have hempty : ∀ style, (empty : Session ν).HasStyle style → P style := by
    rintro style ⟨name, named, hmem, -⟩
    exact absurd hmem List.not_mem_nil
  have hrun := holds_of_run (P := fun session : Session ν => ∀ style, session.HasStyle style → P style)
    (fun session step _ h style hstyle => hP session.HasStyle h style (follows_of_step step hstyle))
    hall hempty
  exact hrun style hstyle

theorem keys_of_run (steps : List (Step ν)) (hstyle : (empty.run steps).1.HasStyle style) :
    (style.properties.map Prod.fst).Nodup :=
  forall_hasStyle_of_run (fun _ hhad _ hfollows => hfollows.keys hhad) steps hstyle

end Session

end ComputedCss
