import ComputedCss.Proofs.Session.Writing

/-!
# Values and their declarations

Every value that a session holds stands over a declaration of the sheet. A step makes values over
the declarations of others, or over one that it adds.

* `Refers`: a declaration is that of a value from before, or it has been added.
* `Session.refers_of_step`: one step makes no other values.
* `Session.declared_of_run`: the values of a run stand on its sheet.
-/

namespace ComputedCss

variable {ν : Type}

/-- A declaration is the one that a value of some kind has, or the first that has been added to the
sheet. -/
def Refers (Held : Style.Entry ν → Prop) (sheet later : Sheet ν) (id : DeclarationId) : Prop :=
  (∃ v, Held v ∧ v.declaration = id) ∨
    id = sheet.declarations.length ∧ id < later.declarations.length

theorem Refers.mono {P Q : Style.Entry ν → Prop} (h : ∀ v, P v → Q v) {sheet later : Sheet ν}
    {id : DeclarationId} (hid : Refers P sheet later id) : Refers Q sheet later id := by
  rcases hid with ⟨v, hv, hsame⟩ | hnew
  · exact .inl ⟨v, h v hv, hsame⟩
  · exact .inr hnew

/-! ## Styles -/

namespace Style

variable {style ancestor : Style ν} {property : Property} {v w : Entry ν} {sheet : Sheet ν}

theorem has_of_lineage (hline : style.Lineage ancestor) (h : ancestor.Has v) : style.Has v := by
  induction hline with
  | self => exact h
  | parent _ hparent ih => exact ih (.inherited hparent h)

theorem has_of_lookup? (h : style.lookup? property = some v) : style.Has v := by
  obtain ⟨ancestor, hline, hmem⟩ := mem_of_lookup? h
  exact has_of_lineage hline (.own hmem)

theorem has_of_parentLookup? (h : parentLookup? style.parent property = some v) : style.Has v := by
  obtain ⟨ancestor, hline, hmem⟩ := mem_of_parentLookup? h
  exact has_of_lineage hline (.own hmem)

variable [Scalar ν]

theorem refers_derive {text : String} (h : (style.derive property text sheet).subject.Has w) :
    Refers style.Has sheet (style.derive property text sheet).sheet w.declaration := by
  have hderives := derives property text style sheet
  generalize style.derive property text sheet = outcome at hderives h ⊢
  cases hderives with
  | unreadable error notices hparse => exact .inl ⟨w, h, rfl⟩
  | failed declaration settled error notices hpass hresult => exact .inl ⟨w, h, rfl⟩
  | set declaration settled resolution notices hpass hresult =>
    rcases has_set h with rfl | h
    · -- What is set stands over the new declaration, or over the one that the parent hands down.
      have hlength : settled.sheet.declarations.length = sheet.declarations.length + 1 := by
        rw [length_of_stylePass hpass, drawn_declarations, List.length_append, List.length_singleton]
      rw [(stands_of_stylePass hpass hresult).2]
      rcases drawn_cases property declaration style sheet with hnew | ⟨-, v, hv, hshared⟩
      · refine .inr ⟨hnew, ?_⟩
        show _ < settled.sheet.declarations.length
        rw [hnew, hlength]
        exact Nat.lt_succ_self _
      · exact .inl ⟨v, has_of_parentLookup? hv, hshared.symm⟩
    · exact .inl ⟨w, h, rfl⟩

theorem refers_bind {block : ContainingBlock ν} (h : (style.bind block sheet).subject.Has w) :
    Refers style.Has sheet (style.bind block sheet).sheet w.declaration := by
  cases h with
  | own hmem =>
    change (_, w) ∈ (bindEach block style.properties sheet).subject at hmem
    rw [(bindEach_spec block style.properties sheet).2] at hmem
    obtain ⟨⟨property, v⟩, hv, heq⟩ := List.mem_map.mp hmem
    obtain ⟨rfl, rfl⟩ := Prod.mk.inj heq
    exact .inl ⟨v, .own hv, (ComputedValue.declaration_bound v block).symm⟩
  | inherited hparent hw => exact .inl ⟨w, .inherited hparent hw, rfl⟩

end Style

/-! ## Sessions -/

namespace Session

variable {session : Session ν} {target : Target} {v w : Style.Entry ν} {name : String}
  {later : Sheet ν}

theorem holds_of_read? (h : session.read? target = some v) : session.Holds v := by
  cases target with
  | value name => exact Holds.value (mem_of_lookup h)
  | property name property =>
    obtain ⟨style, hstyle, hlookup⟩ := Option.bind_eq_some_iff.mp h
    exact holds_of_style? hstyle (Style.has_of_lookup? hlookup)

theorem holds_of_hasStyle {style : Style ν} (hstyle : session.HasStyle style) (h : style.Has v) :
    session.Holds v := by
  obtain ⟨name, named, hmem, hline⟩ := hstyle
  exact Holds.style hmem (Style.has_of_lineage hline h)

theorem refers_of_holds (h : session.Holds w) :
    Refers session.Holds session.sheet later w.declaration :=
  .inl ⟨w, h, rfl⟩

theorem refers_changeStyle {α : Type} {operation : Style ν → Sheet ν → Outcome ν (Style ν) α}
    {answer : Session ν → Except (ValueError ν) α → Answer ν}
    (hoperation : ∀ style, (operation style session.sheet).subject.Has w →
      Refers style.Has session.sheet (operation style session.sheet).sheet w.declaration)
    (h : (session.changeStyle name operation answer).1.Holds w) :
    Refers session.Holds session.sheet (session.changeStyle name operation answer).1.sheet
      w.declaration := by
  cases hopen : session.openStyle? name with
  | none =>
    rw [changeStyle_of_none hopen] at h
    exact refers_of_holds h
  | some style =>
    rw [changeStyle_of_some hopen] at h ⊢
    rcases holds_putStyle h with hw | h
    · exact (hoperation style hw).mono fun v => holds_of_openStyle? hopen
    · exact refers_of_holds h

variable [Scalar ν]

theorem refers_declare {declaration : Declaration ν} {config : Config ν} {context : Option String}
    (h : (session.declare name declaration config context).1.Holds w) :
    Refers session.Holds session.sheet (session.declare name declaration config context).1.sheet
      w.declaration := by
  rcases holds_putValue h with rfl | h
  · have hadded : (session.takeContext context).2.sheet.declarations.length =
        session.sheet.declarations.length := by rw [takeContext_sheet]
    refine .inr ⟨hadded, ?_⟩
    rw [declare_declarations, List.length_append, List.length_singleton]
    exact Nat.lt_succ_of_le (Nat.le_of_eq hadded)
  · exact refers_of_holds (holds_takeContext h)

theorem refers_operate {operation : Operation ν}
    (h : (session.operate target operation).1.Holds w) :
    Refers session.Holds session.sheet later w.declaration := by
  cases hv : session.own? target with
  | none =>
    rw [operate_of_none hv] at h
    exact refers_of_holds h
  | some v =>
    rw [operate_of_some hv] at h
    rcases holds_replace h with rfl | h
    · exact .inl ⟨v, holds_of_own? hv, (operation.subject_on v session.sheet).1.symm⟩
    · exact refers_of_holds h

/-- A value that a session holds after a step stands over the declaration of one that it held
before, or over one that the step has added. -/
theorem refers_of_step (step : Step ν) (h : (session.step step).1.Holds w) :
    Refers session.Holds session.sheet (session.step step).1.sheet w.declaration := by
  cases step with
  | resolveAgainst | resolve | bind | setNumber | setString | setText =>
    rw [step_of_operation? rfl] at h
    exact refers_operate h
  | new name text config context =>
    unfold Session.step declareText at h ⊢
    dsimp only at h ⊢
    split at h
    · exact refers_declare h
    · exact refers_of_holds h
  | newFrom name value config context => exact refers_declare h
  | wrap name target config context =>
    unfold Session.step wrap at h
    dsimp only at h
    split at h
    · exact refers_of_holds h
    · rename_i v hv
      rcases holds_putValue h with rfl | h
      · exact .inl ⟨v, holds_of_read? hv, rfl⟩
      · exact refers_of_holds (holds_takeContext h)
  | copy name target =>
    unfold Session.step copy at h
    dsimp only at h
    split at h
    · exact refers_of_holds h
    · rename_i v hv
      rcases holds_putValue h with rfl | h
      · exact .inl ⟨v, holds_of_read? hv, rfl⟩
      · exact refers_of_holds h
  | segments target =>
    unfold Session.step segments at h
    dsimp only at h
    split at h
    · exact refers_of_holds h
    · exact refers_of_holds h
  | writeText | writePrimitive => exact refers_of_holds (holds_write h)
  | root name config =>
    rcases holds_putStyle h with hw | h
    · cases hw with
      | own hmem =>
        obtain ⟨-, rfl⟩ := Prod.mk.inj (List.mem_singleton.mp hmem)
        exact .inr ⟨rfl, session.sheet.declared_add _⟩
      | inherited hparent hw => exact absurd hparent (by simp)
    · exact refers_of_holds h
  | child name parent =>
    cases hstyle : session.style? parent with
    | none =>
      rw [step_child_of_none hstyle] at h
      exact refers_of_holds h
    | some style =>
      rw [step_child_of_some hstyle] at h
      rcases holds_putStyle h with hw | h
      · exact refers_of_holds (holds_of_style? hstyle (Style.has_childOf hw))
      · exact refers_of_holds (holds_sealStyle h)
  | derive name property text => exact refers_changeStyle (fun style => Style.refers_derive) h
  | insert name property source => exact refers_of_holds (holds_insert h)
  | bindStyle name block => exact refers_changeStyle (fun style => Style.refers_bind) h
  | pending | styleInfo | parentValue => exact refers_of_holds (holds_viewStyle h)
  | report | wasReported | clearReports => exact refers_of_holds h
  | snapshot | inspect | numberIn | item | sameDeclaration | contextValue | describe =>
    exact refers_of_holds (holds_view h)

/-! ## Runs -/

/-- Every value that the session holds stands on its sheet. -/
def Declared (session : Session ν) : Prop :=
  ∀ v, session.Holds v → v.declaration < session.sheet.declarations.length

theorem declared_of_step (h : session.Declared) (step : Step ν) : (session.step step).1.Declared := by
  intro w hw
  rcases refers_of_step step hw with ⟨v, hv, hsame⟩ | ⟨-, hnew⟩
  · rw [← hsame]
    exact Nat.lt_of_lt_of_le (h v hv) (changes_of_step session step).length
  · exact hnew

theorem declared_of_run (steps : List (Step ν)) : (empty.run steps).1.Declared := by
  have hall : ∀ step ∈ steps, (fun _ : Step ν => true) step = true := fun _ _ => rfl
  exact holds_of_run (P := Declared) (fun _ step _ h => declared_of_step h step) hall
    fun _ hv => absurd hv not_holds_empty

end Session

end ComputedCss
