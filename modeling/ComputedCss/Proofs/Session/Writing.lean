import ComputedCss.Proofs.ComputedValue.Operations
import ComputedCss.Proofs.Session.Building
import ComputedCss.Proofs.Session.Holders

/-!
# What a session writes

A step adds declarations to the sheet and writes some. What it can make them say is said once, for
every step.

* `Sheet.Changes`: a later sheet, on which whatever is new or written has a property.
* `Session.Says`: what a step can make a declaration say.
* `Session.changes_of_step`: a step changes the sheet in no other way.
-/

namespace ComputedCss

variable {ν : Type}

/-- A later sheet. Each of its declarations is an old one, or has a property. -/
structure Sheet.Changes (P : DeclarationId → Declaration ν → Prop) (sheet later : Sheet ν) :
    Prop where
  length : sheet.declarations.length ≤ later.declarations.length
  get : ∀ id, id < later.declarations.length →
    id < sheet.declarations.length ∧ later.get id = sheet.get id ∨ P id (later.get id)

namespace Sheet.Changes

variable {P : DeclarationId → Declaration ν → Prop} {sheet later : Sheet ν}

theorem of_declarations_eq (h : later.declarations = sheet.declarations) :
    Changes P sheet later := by
  refine ⟨Nat.le_of_eq (congrArg List.length h.symm), fun id hid => .inl ⟨h ▸ hid, ?_⟩⟩
  unfold Sheet.get
  rw [h]

theorem of_added {declaration : Declaration ν}
    (h : later.declarations = sheet.declarations ++ [declaration])
    (hP : P sheet.declarations.length declaration) : Changes P sheet later := by
  have hadd : ∀ id, later.get id = (sheet.add declaration).2.get id := by
    intro id
    unfold Sheet.get
    rw [h]
    rfl
  have hlength : later.declarations.length = sheet.declarations.length + 1 := by
    rw [h, List.length_append, List.length_singleton]
  refine ⟨by omega, fun id hid => ?_⟩
  rw [hadd]
  by_cases hold : id < sheet.declarations.length
  · exact .inl ⟨hold, Sheet.get_add_of_lt hold declaration⟩
  · obtain rfl : id = sheet.declarations.length := by omega
    exact .inr ((Sheet.get_add_self sheet declaration).symm ▸ hP)

theorem write (h : Changes P sheet later) {id : DeclarationId} {declaration : Declaration ν}
    (hP : P id declaration) : Changes P sheet (later.write id declaration) := by
  have hlength : (later.write id declaration).declarations.length = later.declarations.length :=
    List.length_set
  refine ⟨hlength ▸ h.length, fun other hother => ?_⟩
  rw [hlength] at hother
  by_cases hsame : other = id
  · subst hsame
    exact .inr ((Sheet.get_write_self hother declaration).symm ▸ hP)
  · rw [Sheet.get_write_of_ne hsame]
    exact h.get other hother

theorem refl (sheet : Sheet ν) : Changes P sheet sheet :=
  of_declarations_eq rfl

end Sheet.Changes

/-! ## Parts of a step -/

namespace Session

variable {session : Session ν} {target : Target}

theorem takeContext_sheet (session : Session ν) (context : Option String) :
    (session.takeContext context).2.sheet = session.sheet := by
  cases context with
  | none => rfl
  | some name => exact sealStyle_sheet session name

theorem replace_sheet (session : Session ν) (target : Target) (v : Style.Entry ν) :
    (session.replace target v).sheet = session.sheet := by
  unfold replace
  split
  · rfl
  · split <;> rfl

theorem insert_sheet (session : Session ν) (name : String) (property : Property) (source : String) :
    (session.insert name property source).1.sheet = session.sheet := by
  unfold insert
  split <;> rfl

theorem segments_declarations (session : Session ν) (target : Target) :
    (session.segments target).1.sheet.declarations = session.sheet.declarations := by
  unfold segments
  split
  · rfl
  · rename_i v hv
    show (v.segmentsOf session.sheet).2.declarations = _
    unfold ComputedValue.segmentsOf
    split <;> rfl

theorem view_fst (session : Session ν) (target : Target)
    (look : Style.Entry ν → Sheet ν → Answer ν) : (session.view target look).1 = session := by
  unfold view
  split <;> rfl

theorem viewStyle_fst (session : Session ν) (name : String) (look : Style ν → Answer ν) :
    (session.viewStyle name look).1 = session := by
  unfold viewStyle
  split <;> rfl

theorem changes_changeStyle {α : Type} {P : DeclarationId → Declaration ν → Prop} {name : String}
    {operation : Style ν → Sheet ν → Outcome ν (Style ν) α}
    {answer : Session ν → Except (ValueError ν) α → Answer ν}
    (hoperation : ∀ style, session.sheet.Changes P (operation style session.sheet).sheet) :
    session.sheet.Changes P (session.changeStyle name operation answer).1.sheet := by
  cases hopen : session.openStyle? name with
  | none =>
    rw [changeStyle_of_none hopen]
    exact .refl _
  | some style =>
    rw [changeStyle_of_some hopen]
    exact hoperation style

theorem changes_write {P : DeclarationId → Declaration ν → Prop} {target : Target}
    {operation : DeclarationId → Sheet ν → Outcome ν Unit Unit}
    (hoperation : ∀ v, session.read? target = some v →
      session.sheet.Changes P (operation v.declaration session.sheet).sheet) :
    session.sheet.Changes P (session.write target operation).1.sheet := by
  unfold write
  split
  · exact .refl _
  · rename_i v hv
    exact hoperation v hv

end Session

variable [Scalar ν]

namespace Session

variable {session : Session ν} {step : Step ν} {target : Target} {operation : Operation ν}
  {name : String} {v w : Style.Entry ν}

/-! ## What a step can write -/

/-- What a step can make a declaration say: a number of pixels, what a text says, or what is handed
to the step. -/
inductive Says (session : Session ν) (id : DeclarationId) : Step ν → Declaration ν → Prop
  | pixels {step : Step ν} (x) : Says session id step (.ofPrimitive (.numeric x .px))
  | text {step : Step ν} (text value) : Value.parse? text = .ok value →
    Says session id step ⟨Text.trimmed text, value⟩
  | value (name value config context) : id = session.sheet.declarations.length →
    Says session id (.newFrom name value config context) (.ofValue value)
  | number (target type x v) : session.own? target = some v → v.declaration = id →
    Says session id (.setNumber target type x) (.ofPrimitive (.numeric x type))
  | string (target text v current primitive) : session.own? target = some v → v.declaration = id →
    v.primitive session.sheet = .ok current → current.withString? text = some primitive →
    Says session id (.setString target text) (.ofPrimitive primitive)
  | primitive (target primitive v) : session.read? target = some v → v.declaration = id →
    Says session id (.writePrimitive target primitive) (.ofPrimitive primitive)

theorem says_of_writes {declaration : Declaration ν}
    (hoperation : session.operation? step = some (target, operation))
    (hv : session.own? target = some v) (h : Operation.Writes v session.sheet operation declaration) :
    session.Says v.declaration step declaration := by
  cases h with
  | number type value current hcurrent hnumeric =>
    cases step with
    | setNumber target' type' value' =>
      obtain ⟨rfl, hsame⟩ := Prod.mk.inj (Option.some.inj hoperation)
      obtain ⟨rfl, rfl⟩ := Operation.setNumber.inj hsame
      exact .number target' type' value' v hv rfl
    | _ => exact absurd hoperation (by simp [operation?])
  | string text current primitive hcurrent hwith =>
    cases step with
    | setString target' text' =>
      obtain ⟨rfl, hsame⟩ := Prod.mk.inj (Option.some.inj hoperation)
      obtain rfl := Operation.setString.inj hsame
      exact .string target' text' v current primitive hv rfl hcurrent hwith
    | _ => exact absurd hoperation (by simp [operation?])
  | text text value hparse => exact .text text value hparse

theorem changes_operate (hoperation : session.operation? step = some (target, operation)) :
    session.sheet.Changes (session.Says · step) (session.operate target operation).1.sheet := by
  cases hv : session.own? target with
  | none =>
    rw [operate_of_none hv]
    exact .refl _
  | some v =>
    rw [operate_of_some hv]
    dsimp only
    rw [replace_sheet]
    show session.sheet.Changes _ (operation.on v session.sheet).sheet
    rcases operation.sheet_on v session.sheet with hsheet | ⟨declaration, hsheet, hwrites⟩
    · rw [hsheet]
      exact .refl _
    · rw [hsheet]
      refine (Sheet.Changes.refl session.sheet).write ?_
      rcases hwrites with ⟨pixels, rfl⟩ | hwrites
      · exact .pixels pixels
      · exact says_of_writes hoperation hv hwrites

theorem declare_declarations (session : Session ν) (name : String) (declaration : Declaration ν)
    (config : Config ν) (context : Option String) :
    (session.declare name declaration config context).1.sheet.declarations =
      session.sheet.declarations ++ [declaration] := by
  show (session.takeContext context).2.sheet.declarations ++ [declaration] = _
  rw [takeContext_sheet]

theorem wrap_declarations (session : Session ν) (name : String) (target : Target)
    (config : Config ν) (context : Option String) :
    (session.wrap name target config context).1.sheet.declarations =
      session.sheet.declarations := by
  unfold wrap
  split
  · rfl
  · show (session.takeContext context).2.sheet.declarations = _
    rw [takeContext_sheet]

theorem copy_declarations (session : Session ν) (name : String) (target : Target) :
    (session.copy name target).1.sheet.declarations = session.sheet.declarations := by
  unfold copy
  split <;> rfl

end Session

/-! ## Styles -/

namespace Style

variable {style : Style ν} {sheet : Sheet ν} {P : DeclarationId → Declaration ν → Prop}

theorem sheet_of_stylePass {parent : Option (Style ν)} {property : Property} {v : Entry ν}
    {settled : Outcome ν (Entry ν) (Resolution ν)}
    (h : ComputedValue.StylePass parent property v sheet settled) :
    settled.sheet = sheet ∨
      ∃ pixels, settled.sheet = sheet.write v.declaration (.ofPrimitive (.numeric pixels .px)) := by
  cases h with
  | resolved pixels notices hkind => exact .inr ⟨_, rfl⟩
  | _ => exact .inl rfl

theorem changes_derive {text : String} (hpixels : ∀ id x, P id (.ofPrimitive (.numeric x .px)))
    (htext : ∀ id value, Value.parse? text = .ok value → P id ⟨Text.trimmed text, value⟩)
    (property : Property) (style : Style ν) (sheet : Sheet ν) :
    sheet.Changes P (style.derive property text sheet).sheet := by
  cases hparse : (Value.parse? text : Except (ValueError ν) (Value ν)) with
  | error error =>
    rw [derive_of_error hparse]
    exact .refl sheet
  | ok value =>
    let drawing := (drawn property ⟨Text.trimmed text, value⟩ style sheet).value
    have hadded : sheet.Changes P drawing.2 :=
      .of_added drawn_declarations (htext _ value hparse)
    rw [derive_of_ok hparse, deriveRead_eq]
    show sheet.Changes P (settle style.parent property drawing.1 drawing.2).sheet
    rcases sheet_of_stylePass (stylePass_settle isRead_drawn style.parent property) with
      hsame | ⟨pixels, hwrite⟩
    · rw [hsame]
      exact hadded
    · rw [hwrite]
      exact hadded.write (hpixels _ pixels)

theorem changes_bind (hpixels : ∀ id x, P id (.ofPrimitive (.numeric x .px)))
    (block : ContainingBlock ν) (style : Style ν) (sheet : Sheet ν) :
    sheet.Changes P (style.bind block sheet).sheet := by
  have hlength : (style.bind block sheet).sheet.declarations.length = sheet.declarations.length :=
    (bindEach_sheet block style.properties sheet).1
  refine ⟨Nat.le_of_eq hlength.symm, fun id hid => ?_⟩
  rw [hlength] at hid
  have hget : (style.bind block sheet).sheet = (bindEach block style.properties sheet).sheet := rfl
  rcases get_bindEach hid block style.properties with hsame | ⟨pixels, hwritten⟩
  · exact .inl ⟨hid, hsame⟩
  · rw [hget, hwritten]
    exact .inr (hpixels id pixels)

end Style

namespace Session

variable {session : Session ν} {step : Step ν}

theorem changes_writeText (text : String) (id : DeclarationId) (sheet : Sheet ν) :
    sheet.Changes (session.Says · step) (sheet.writeText id text).sheet := by
  unfold Sheet.writeText
  dsimp only
  cases hparse : (Value.parse? text : Except (ValueError ν) (Value ν)) with
  | error error =>
    rw [read_eq_error hparse]
    exact .refl sheet
  | ok value =>
    rw [read_eq_ok hparse]
    exact (Sheet.Changes.refl sheet).write (.text text value hparse)

/-- **What is new on the sheet after a step is what the step can make a declaration say.** -/
theorem changes_of_step (session : Session ν) (step : Step ν) :
    session.sheet.Changes (session.Says · step) (session.step step).1.sheet := by
  have hpixels : ∀ id x, session.Says id step (.ofPrimitive (.numeric x .px)) :=
    fun id x => .pixels x
  cases step with
  | resolveAgainst | resolve | bind | setNumber | setString | setText =>
    rw [step_of_operation? rfl]
    exact changes_operate rfl
  | new name text config context =>
    unfold Session.step declareText
    dsimp only
    cases hparse : (Value.parse? text : Except (ValueError ν) (Value ν)) with
    | error error =>
      rw [read_eq_error hparse]
      exact .refl _
    | ok value =>
      rw [read_eq_ok hparse]
      exact .of_added (declare_declarations _ name _ config context) (.text text value hparse)
  | newFrom name value config context =>
    exact .of_added (declare_declarations session name _ config context) (.value _ _ _ _ rfl)
  | wrap name target config context =>
    exact .of_declarations_eq (wrap_declarations session name target config context)
  | copy name target => exact .of_declarations_eq (copy_declarations session name target)
  | segments target => exact .of_declarations_eq (segments_declarations session target)
  | writeText target text =>
    exact changes_write fun v _ => changes_writeText text v.declaration session.sheet
  | writePrimitive target primitive =>
    exact changes_write fun v hv => (Sheet.Changes.refl _).write (.primitive target primitive v hv rfl)
  | root name config => exact .of_added rfl (hpixels _ config.defaultFontSize)
  | child name parent =>
    cases hstyle : session.style? parent with
    | none =>
      rw [step_child_of_none hstyle]
      exact .refl _
    | some style =>
      rw [step_child_of_some hstyle]
      exact .of_declarations_eq (congrArg Sheet.declarations (sealStyle_sheet session parent))
  | derive name property text =>
    exact changes_changeStyle fun style =>
      Style.changes_derive hpixels (fun id value hparse => .text text value hparse) property style _
  | insert name property source =>
    exact .of_declarations_eq (congrArg Sheet.declarations (insert_sheet session name property source))
  | bindStyle name block =>
    exact changes_changeStyle fun style => Style.changes_bind hpixels block style _
  | pending name | styleInfo name | parentValue name property =>
    exact .of_declarations_eq (congrArg (·.sheet.declarations) (viewStyle_fst session name _))
  | report | wasReported | clearReports => exact .refl _
  | snapshot target | inspect target | numberIn target type | item target index
  | sameDeclaration target other | contextValue target property | describe target =>
    exact .of_declarations_eq (congrArg (·.sheet.declarations) (view_fst session target _))

end Session

end ComputedCss
