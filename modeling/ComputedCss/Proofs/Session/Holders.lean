import ComputedCss.Session.Run
import ComputedCss.Proofs.ComputedValue.Operations
import ComputedCss.Proofs.Keyed

/-!
# Holders

A session holds computed values by name, and styles that hold computed values. What a session holds
after a step was held before, or arises from what was held.

* `ComputedValue.Arises`: a value is made over a declaration, or an operation leaves it behind. The
  sheet of each operation is arbitrary, so every interleaving with other holders is covered.
* `ComputedValue.Invariant`: what every value has that is made, and every operation keeps.
* `Session.operate`: an operation on a value that a step would change.
* `arises_of_step`: one step.
* `ComputedValue.Invariant.of_run`: an invariant holds of every value that a run leaves behind.
-/

namespace ComputedCss

variable {ν : Type} [Scalar ν]

/-- The values that arise from some held values by the operations on computed values. -/
inductive ComputedValue.Arises (Held : Style.Entry ν → Prop) : Style.Entry ν → Prop
  | held {v} : Held v → Arises Held v
  | declared (declaration context config sheet) :
    Arises Held (ofDeclaration declaration context config sheet).1
  | changed {v} (operation : Operation ν) (sheet) :
    Arises Held v → Arises Held (operation.on v sheet).subject

/-- What holds of every value that has just been made, and what every operation keeps over any
sheet. -/
structure ComputedValue.Invariant (P : Style.Entry ν → Prop) : Prop where
  made : ∀ declaration context config sheet, P (ofDeclaration declaration context config sheet).1
  kept : ∀ {v}, P v → ∀ (operation : Operation ν) (sheet), P (operation.on v sheet).subject

open ComputedValue (Arises Invariant)

namespace ComputedValue

variable {Held P Q : Style.Entry ν → Prop} {v : Style.Entry ν}

theorem Invariant.of_arises (hP : Invariant P) (hheld : ∀ v, Held v → P v) (hv : Arises Held v) :
    P v := by
  induction hv with
  | held hv => exact hheld _ hv
  | declared declaration context config sheet => exact hP.made declaration context config sheet
  | changed operation sheet _ ih => exact hP.kept ih operation sheet

theorem invariant_arises (Held : Style.Entry ν → Prop) : Invariant (Arises Held) where
  made := .declared
  kept hv operation sheet := .changed operation sheet hv

theorem Arises.mono (h : ∀ v, P v → Q v) (hv : Arises P v) : Arises Q v :=
  (invariant_arises Q).of_arises (fun v hv => .held (h v hv)) hv

end ComputedValue

/-! ## Styles -/

namespace Style

/-- The values of a style and of its ancestors. -/
inductive Has : Style ν → Entry ν → Prop
  | own {style : Style ν} {property v} : (property, v) ∈ style.properties → Has style v
  | inherited {style parent : Style ν} {v} : style.parent = some parent → Has parent v → Has style v

variable {style : Style ν} {v w : Entry ν} {property : Property}

omit [Scalar ν] in
theorem has_of_own? (h : style.own? property = some v) : style.Has v :=
  .own (mem_of_lookup h)

omit [Scalar ν] in
theorem has_set (h : (style.set property v).Has w) : w = v ∨ style.Has w := by
  cases h with
  | own hmem =>
    rcases mem_put hmem with heq | hmem
    · exact .inl (Prod.mk.inj heq).2
    · exact .inr (.own hmem)
  | inherited hparent hw => exact .inr (.inherited hparent hw)

omit [Scalar ν] in
theorem has_childOf (h : style.childOf.Has w) : style.Has w := by
  cases h with
  | own hmem => exact absurd hmem List.not_mem_nil
  | inherited hparent hw =>
    obtain rfl := Option.some.inj hparent
    exact hw

theorem arises_root (Held : Entry ν → Prop) (config : Config ν) (sheet : Sheet ν)
    (h : (root config sheet).1.Has w) : Arises Held w := by
  cases h with
  | own hmem =>
    obtain ⟨-, rfl⟩ := Prod.mk.inj (List.mem_singleton.mp hmem)
    exact .declared _ _ _ _
  | inherited hparent hw => exact absurd hparent (by simp [root])

/-! ### Deriving and binding -/

theorem arises_settle {Held : Entry ν → Prop} (hv : Arises Held v) (parent : Option (Style ν))
    (sheet : Sheet ν) : Arises Held (settle parent property v sheet).subject := by
  unfold settle
  split
  · exact .changed (.resolveAgainst parent property) sheet hv
  · exact hv

theorem arises_inherit {Held : Entry ν → Prop} (hv : Arises Held v) (parent : Option (Style ν))
    (sheet : Sheet ν) : Arises Held (inherit parent property v sheet).value.1 := by
  unfold inherit
  split
  · split
    · exact .declared _ _ _ _
    · exact hv
  · exact hv

theorem arises_derive (text : String) (sheet : Sheet ν)
    (h : (style.derive property text sheet).subject.Has w) : Arises style.Has w := by
  unfold derive at h
  dsimp only at h
  split at h
  · exact .held h
  · unfold deriveRead at h
    dsimp only [Outcome.after, Outcome.around] at h
    split at h
    · rcases has_set h with rfl | h
      · exact arises_settle (arises_inherit (.declared _ _ _ _) _ _) _ _
      · exact .held h
    · exact .held h

theorem arises_bindEach (block : ContainingBlock ν) {entries : List (Property × Entry ν)}
    {Held : Entry ν → Prop} (hentries : ∀ entry ∈ entries, Held entry.2) (sheet : Sheet ν) :
    ∀ entry ∈ (bindEach block entries sheet).subject, Arises Held entry.2 := by
  induction entries generalizing sheet with
  | nil => exact fun entry hentry => absurd hentry List.not_mem_nil
  | cons first rest ih =>
    obtain ⟨property, v⟩ := first
    have hv : Held v := hentries _ List.mem_cons_self
    have hrest := fun entry hentry => hentries entry (List.mem_cons_of_mem (property, v) hentry)
    unfold bindEach
    split
    · dsimp only
      split
      · intro entry hentry
        rcases List.mem_cons.mp hentry with rfl | hentry
        · exact .changed (.bind block) sheet (.held hv)
        · exact .held (hrest entry hentry)
      · intro entry hentry
        rcases List.mem_cons.mp hentry with rfl | hentry
        · exact .changed (.bind block) sheet (.held hv)
        · exact ih hrest _ entry hentry
    · intro entry hentry
      rcases List.mem_cons.mp hentry with rfl | hentry
      · exact .held hv
      · exact ih hrest _ entry hentry

theorem arises_bind (block : ContainingBlock ν) (sheet : Sheet ν)
    (h : (style.bind block sheet).subject.Has w) : Arises style.Has w := by
  cases h with
  | own hmem => exact arises_bindEach block (fun entry hentry => .own hentry) sheet _ hmem
  | inherited hparent hw => exact .held (.inherited hparent hw)

end Style

/-! ## Sessions -/

namespace Session

/-- The values that a session holds, by their names and in its styles. -/
def Holds (session : Session ν) (v : Style.Entry ν) : Prop :=
  (∃ name, (name, v) ∈ session.values) ∨
    ∃ name named, (name, named) ∈ session.styles ∧ named.style.Has v

variable {session : Session ν} {v w : Style.Entry ν} {name : String}

section

omit [Scalar ν]

theorem Holds.value (h : (name, v) ∈ session.values) : session.Holds v :=
  .inl ⟨name, h⟩

theorem Holds.style {named : NamedStyle ν} (h : (name, named) ∈ session.styles)
    (hv : named.style.Has v) : session.Holds v :=
  .inr ⟨name, named, h, hv⟩

theorem holds_of_style? {style : Style ν} (hstyle : session.style? name = some style)
    (h : style.Has v) : session.Holds v := by
  obtain ⟨named, hnamed, rfl⟩ := Option.map_eq_some_iff.mp hstyle
  exact Holds.style (mem_of_lookup hnamed) h

theorem holds_of_openStyle? {style : Style ν} (hstyle : session.openStyle? name = some style)
    (h : style.Has v) : session.Holds v := by
  obtain ⟨named, hnamed, hopen⟩ := Option.bind_eq_some_iff.mp hstyle
  by_cases hsealed : named.isSealed
  · rw [if_pos hsealed] at hopen
    exact absurd hopen (by simp)
  · rw [if_neg hsealed] at hopen
    obtain rfl := Option.some.inj hopen
    exact Holds.style (mem_of_lookup hnamed) h

theorem holds_of_own? {target : Target} (h : session.own? target = some v) : session.Holds v := by
  cases target with
  | value name => exact Holds.value (mem_of_lookup h)
  | property style property =>
    obtain ⟨found, hstyle, hown⟩ := Option.bind_eq_some_iff.mp h
    exact holds_of_openStyle? hstyle (Style.has_of_own? hown)

theorem holds_putValue (h : (session.putValue name v).Holds w) : w = v ∨ session.Holds w := by
  rcases h with ⟨name', hmem⟩ | ⟨name', named, hmem, hw⟩
  · rcases mem_put hmem with heq | hmem
    · exact .inl (Prod.mk.inj heq).2
    · exact .inr (Holds.value hmem)
  · exact .inr (Holds.style hmem hw)

theorem holds_putStyle {style : Style ν} (h : (session.putStyle name style).Holds w) :
    style.Has w ∨ session.Holds w := by
  rcases h with ⟨name', hmem⟩ | ⟨name', named, hmem, hw⟩
  · exact .inr (Holds.value hmem)
  · rcases mem_put hmem with heq | hmem
    · obtain ⟨-, rfl⟩ := Prod.mk.inj heq
      exact .inl hw
    · exact .inr (Holds.style hmem hw)

theorem holds_sealStyle (h : (session.sealStyle name).Holds w) : session.Holds w := by
  unfold sealStyle at h
  split at h
  · rename_i style hstyle
    rcases h with ⟨name', hmem⟩ | ⟨name', named, hmem, hw⟩
    · exact Holds.value hmem
    · rcases mem_put hmem with heq | hmem
      · obtain ⟨-, rfl⟩ := Prod.mk.inj heq
        exact holds_of_style? hstyle hw
      · exact Holds.style hmem hw
  · exact h

theorem holds_takeContext {context : Option String} (h : (session.takeContext context).2.Holds w) :
    session.Holds w := by
  cases context with
  | none => exact h
  | some name => exact holds_sealStyle h

theorem holds_replace {target : Target} (h : (session.replace target v).Holds w) :
    w = v ∨ session.Holds w := by
  cases target with
  | value name => exact holds_putValue h
  | property name property =>
    unfold replace at h
    dsimp only at h
    split at h
    · rename_i style hstyle
      rcases holds_putStyle h with hw | h
      · rcases Style.has_set hw with rfl | hw
        · exact .inl rfl
        · exact .inr (holds_of_openStyle? hstyle hw)
      · exact .inr h
    · exact .inr h

/-! ### Steps that make no value -/

theorem holds_view {target : Target} {look : Style.Entry ν → Sheet ν → Answer ν}
    (h : (session.view target look).1.Holds w) : session.Holds w := by
  unfold view at h
  split at h
  · exact h
  · exact h

theorem holds_viewStyle {look : Style ν → Answer ν}
    (h : (session.viewStyle name look).1.Holds w) : session.Holds w := by
  unfold viewStyle at h
  split at h
  · exact h
  · exact h

theorem holds_write {target : Target} {operation : DeclarationId → Sheet ν → Outcome ν Unit Unit}
    (h : (session.write target operation).1.Holds w) : session.Holds w := by
  unfold write at h
  split at h
  · exact h
  · exact h

theorem holds_insert {property : Property} {source : String}
    (h : (session.insert name property source).1.Holds w) : session.Holds w := by
  unfold insert at h
  split at h
  · rename_i style v hstyle hv
    have hput : (session.putStyle name (style.set property v)).Holds w := by
      rcases h with ⟨name', hmem⟩ | h
      · exact Holds.value (List.mem_filter.mp hmem).1
      · exact .inr h
    rcases holds_putStyle hput with hw | h
    · rcases Style.has_set hw with rfl | hw
      · exact Holds.value (mem_of_lookup hv)
      · exact holds_of_openStyle? hstyle hw
    · exact h
  · exact h

theorem not_holds_empty : ¬ (empty : Session ν).Holds w := by
  intro h
  rcases h with ⟨name, hmem⟩ | ⟨name, named, hmem, -⟩
  · exact List.not_mem_nil hmem
  · exact List.not_mem_nil hmem

end

variable {step : Step ν} {target : Target} {operation : Operation ν}

/-! ### Operations on held values -/

omit [Scalar ν] in
theorem change_map {α : Type} (session : Session ν) (target : Target)
    (action : Style.Entry ν → Sheet ν → Outcome ν (Style.Entry ν) α) (effect : α → Effect ν) :
    session.change target action effect =
      session.change target (fun v sheet => (action v sheet).map effect) id := by
  unfold change
  split
  · rfl
  · dsimp only [Outcome.map]
    rw [Except.map_id]
    rfl

/-- An operation on the value that a step would change. -/
def operate (session : Session ν) (target : Target) (operation : Operation ν) :
    Session ν × Answer ν :=
  session.change target operation.on id

/-- The operation that a step makes, and the value on which it makes it. -/
def operation? (session : Session ν) : Step ν → Option (Target × Operation ν)
  | .resolveAgainst name property parent =>
    some (.value name, .resolveAgainst (parent.bind session.style?) property)
  | .resolve target property => some (target, .resolve property)
  | .bind target block => some (target, .bind block)
  | .setNumber target type value => some (target, .setNumber type value)
  | .setString target text => some (target, .setString text)
  | .setText target text => some (target, .setText text)
  | _ => none

theorem step_of_operation? (h : session.operation? step = some (target, operation)) :
    session.step step = session.operate target operation := by
  cases step with
  | resolveAgainst | resolve | bind | setNumber | setString | setText =>
    obtain ⟨rfl, rfl⟩ := Prod.mk.inj (Option.some.inj h)
    exact change_map session _ _ _
  | _ => exact absurd h (by simp [operation?])

theorem operate_of_none (h : session.own? target = none) (operation : Operation ν) :
    session.operate target operation = (session, .absent) := by
  unfold operate change
  rw [h]

theorem operate_of_some (h : session.own? target = some v) (operation : Operation ν) :
    session.operate target operation =
      let outcome := operation.on v session.sheet
      let changed := (session.settle outcome).replace target outcome.subject
      (changed, .effect (outcome.result.map id) (some (changed.snapshot outcome.subject))) := by
  unfold operate change
  rw [h]

/-! ### Steps -/

theorem arises_store {made : Style.Entry ν × Sheet ν}
    (hmade : Arises session.Holds made.1) (h : (session.store name made).1.Holds w) :
    Arises session.Holds w := by
  rcases holds_putValue h with rfl | h
  · exact hmade
  · exact .held h

theorem arises_declare {declaration : Declaration ν} {config : Config ν} {context : Option String}
    (h : (session.declare name declaration config context).1.Holds w) :
    Arises session.Holds w := by
  have hsealed := arises_store (.declared _ _ _ _) h
  exact hsealed.mono fun v hv => holds_takeContext hv

theorem arises_operate (h : (session.operate target operation).1.Holds w) :
    Arises session.Holds w := by
  cases hv : session.own? target with
  | none =>
    rw [operate_of_none hv] at h
    exact .held h
  | some v =>
    rw [operate_of_some hv] at h
    rcases holds_replace h with rfl | h
    · exact .changed operation session.sheet (.held (holds_of_own? hv))
    · exact .held h

theorem arises_changeStyle {α : Type}
    {operation : Style ν → Sheet ν → Outcome ν (Style ν) α}
    {answer : Session ν → Except (ValueError ν) α → Answer ν}
    (hoperation : ∀ style sheet, (operation style sheet).subject.Has w → Arises style.Has w)
    (h : (session.changeStyle name operation answer).1.Holds w) : Arises session.Holds w := by
  unfold changeStyle at h
  split at h
  · exact .held h
  · rename_i style hstyle
    rcases holds_putStyle h with hw | h
    · exact (hoperation style session.sheet hw).mono fun v hv => holds_of_openStyle? hstyle hv
    · exact .held h

/-- **What a session holds after a step arises from what it held before.** -/
theorem arises_of_step (step : Step ν) (h : (session.step step).1.Holds w) :
    Arises session.Holds w := by
  cases step with
  | new name text config context =>
    unfold Session.step declareText at h
    dsimp only at h
    split at h
    · have hdeclare := arises_declare h
      exact hdeclare
    · exact .held h
  | newFrom name value config context => exact arises_declare h
  | wrap name target config context =>
    unfold Session.step wrap at h
    dsimp only at h
    split at h
    · exact .held h
    · exact (arises_store (.declared _ _ _ _) h).mono fun v hv => holds_takeContext hv
  | copy name target =>
    unfold Session.step copy at h
    dsimp only at h
    split at h
    · exact .held h
    · exact arises_store (.declared _ _ _ _) h
  | segments target =>
    unfold Session.step segments at h
    dsimp only at h
    split at h
    · exact .held h
    · exact .held h
  | resolveAgainst | resolve | bind | setNumber | setString | setText =>
    rw [step_of_operation? rfl] at h
    exact arises_operate h
  | writeText target text => exact .held (holds_write h)
  | writePrimitive target primitive => exact .held (holds_write h)
  | root name config =>
    rcases holds_putStyle h with hw | h
    · exact Style.arises_root _ config session.sheet hw
    · exact .held h
  | child name parent =>
    unfold Session.step at h
    dsimp only at h
    split at h
    · rename_i style hstyle
      rcases holds_putStyle h with hw | h
      · exact .held (holds_of_style? hstyle (Style.has_childOf hw))
      · exact .held (holds_sealStyle h)
    · exact .held h
  | derive name property text =>
    exact arises_changeStyle (fun style sheet hw => Style.arises_derive text sheet hw) h
  | insert name property source => exact .held (holds_insert h)
  | bindStyle name block =>
    exact arises_changeStyle (fun style sheet hw => Style.arises_bind block sheet hw) h
  | pending name => exact .held (holds_viewStyle h)
  | styleInfo name => exact .held (holds_viewStyle h)
  | parentValue name property => exact .held (holds_viewStyle h)
  | report notice => exact .held h
  | wasReported component message => exact .held h
  | clearReports => exact .held h
  | _ => exact .held (holds_view h)

theorem run_cons (session : Session ν) (step : Step ν) (steps : List (Step ν)) :
    (session.run (step :: steps)).1 = ((session.step step).1.run steps).1 := rfl

end Session

/-- **What every value has that is made, and every operation keeps, every value of a run has.** -/
theorem ComputedValue.Invariant.of_run {P : Style.Entry ν → Prop} (hP : Invariant P)
    (steps : List (Step ν)) {v : Style.Entry ν} (h : (Session.empty.run steps).1.Holds v) : P v := by
  -- The induction goes over the steps, from any session whose values have the property.
  suffices ∀ session : Session ν, (∀ v, session.Holds v → P v) →
      ∀ v, (session.run steps).1.Holds v → P v from
    this .empty (fun v hv => absurd hv Session.not_holds_empty) v h
  clear h
  induction steps with
  | nil => exact fun session hsession => hsession
  | cons step steps ih =>
    intro session hsession
    rw [Session.run_cons]
    exact ih _ fun v hv => hP.of_arises hsession (Session.arises_of_step step hv)

end ComputedCss
