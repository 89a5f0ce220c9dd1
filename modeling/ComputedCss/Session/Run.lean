import ComputedCss.Session.Basic

/-!
# Running a session

`Session.step` is one step with its answer, and `Session.run` answers the steps of a list in order.
-/

namespace ComputedCss.Session

variable {ν : Type} [Scalar ν]

/-! ## Making values -/

/-- The context that a step names, which is sealed by being named. A name that is missing stands for
no context. -/
def takeContext (session : Session ν) (name : Option String) : Option (Style ν) × Session ν :=
  match name with
  | none => (none, session)
  | some name => (session.style? name, session.sealStyle name)

/-- Stores a new value over a declaration, and shows it. -/
def store (session : Session ν) (name : String) (made : Style.Entry ν × Sheet ν) :
    Session ν × Answer ν :=
  let session := { session with sheet := made.2 }
  (session.putValue name made.1, .snapshot (session.snapshot made.1))

/-- Stores a new value over a new declaration. -/
def declare (session : Session ν) (name : String) (declaration : Declaration ν)
    (config : Config ν) (context : Option String) : Session ν × Answer ν :=
  let (context, session) := session.takeContext context
  let (id, sheet) := session.sheet.add declaration
  session.store name (ComputedValue.ofDeclaration id context config sheet)

/-- Classifies a text and stores a value over it. -/
def declareText (session : Session ν) (name text : String) (config : Config ν)
    (context : Option String) : Session ν × Answer ν :=
  let reading := (Declaration.read text).run
  let session := session.report reading.notices
  match reading.value with
  | .ok declaration => session.declare name declaration config context
  | .error error => (session, .failed error)

/-- Stores a value with a context and settings of its own over the declaration of another. -/
def wrap (session : Session ν) (name : String) (target : Target) (config : Config ν)
    (context : Option String) : Session ν × Answer ν :=
  match session.read? target with
  | none => (session, .absent)
  | some v =>
    let (context, session) := session.takeContext context
    session.store name (ComputedValue.ofDeclaration v.declaration context config session.sheet)

/-- Stores a copy of a value. -/
def copy (session : Session ν) (name : String) (target : Target) : Session ν × Answer ν :=
  match session.read? target with
  | none => (session, .absent)
  | some v => session.store name (v.copy session.sheet)

/-! ## Reading values -/

/-- An answer that only reads a value. -/
def view (session : Session ν) (target : Target) (look : Style.Entry ν → Sheet ν → Answer ν) :
    Session ν × Answer ν :=
  match session.read? target with
  | none => (session, .absent)
  | some v => (session, look v session.sheet)

/-- An answer made from a result. -/
def answerOf {α : Type} (result : Except (ValueError ν) α) (answer : α → Answer ν) : Answer ν :=
  match result with
  | .ok a => answer a
  | .error error => .failed error

/-- The value of a style, if there is one. -/
def shown (session : Session ν) (value : Option (Style.Entry ν)) : Answer ν :=
  match value with
  | some v => .snapshot (session.snapshot v)
  | none => .absent

/-- The segments of a value, which are kept from then on. -/
def segments (session : Session ν) (target : Target) : Session ν × Answer ν :=
  match session.read? target with
  | none => (session, .absent)
  | some v =>
    let (segments, sheet) := v.segmentsOf session.sheet
    ({ session with sheet }, .texts segments)

/-! ## Changing values -/

/-- Takes over what an operation on a value leaves behind, except for the value. -/
def settle {σ α : Type} (session : Session ν) (outcome : Outcome ν σ α) : Session ν :=
  { session.report outcome.notices with sheet := outcome.sheet }

/-- Changes a value by an operation, and shows the value after it. -/
def change {α : Type} (session : Session ν) (target : Target)
    (operation : Style.Entry ν → Sheet ν → Outcome ν (Style.Entry ν) α) (effect : α → Effect ν) :
    Session ν × Answer ν :=
  match session.own? target with
  | none => (session, .absent)
  | some v =>
    let outcome := operation v session.sheet
    let session := (session.settle outcome).replace target outcome.subject
    (session, .effect (outcome.result.map effect) (some (session.snapshot outcome.subject)))

/-- Writes the declaration of a value, which itself is left alone. -/
def write (session : Session ν) (target : Target)
    (operation : DeclarationId → Sheet ν → Outcome ν Unit Unit) : Session ν × Answer ν :=
  match session.read? target with
  | none => (session, .absent)
  | some v =>
    let outcome := operation v.declaration session.sheet
    let session := session.settle outcome
    (session, .effect (outcome.result.map fun _ => .done) (some (session.snapshot v)))

/-! ## Styles -/

/-- Changes a style by an operation, and answers with what it answers. -/
def changeStyle {α : Type} (session : Session ν) (name : String)
    (operation : Style ν → Sheet ν → Outcome ν (Style ν) α)
    (answer : Session ν → Except (ValueError ν) α → Answer ν) : Session ν × Answer ν :=
  match session.openStyle? name with
  | none => (session, .absent)
  | some style =>
    let outcome := operation style session.sheet
    let session := (session.settle outcome).putStyle name outcome.subject
    (session, answer session outcome.result)

/-- Moves a stored value into a style. -/
def insert (session : Session ν) (name : String) (property : Property) (source : String) :
    Session ν × Answer ν :=
  match session.openStyle? name, session.values.lookup source with
  | some style, some v =>
    let old := (style.own? property).map session.snapshot
    let session := session.putStyle name (style.set property v)
    ({ session with values := session.values.filter (·.1 != source) }, .replaced old)
  | _, _ => (session, .absent)

/-- The pending values of a style with their texts, in the order of the names. -/
def pendingEntries (session : Session ν) (style : Style ν) : List (String × String) :=
  (style.pending.map fun (property, v) => (property.name, v.text session.sheet)).mergeSort
    fun a b => a.1 ≤ b.1

/-- An answer that only reads a style. -/
def viewStyle (session : Session ν) (name : String) (look : Style ν → Answer ν) :
    Session ν × Answer ν :=
  match session.style? name with
  | none => (session, .absent)
  | some style => (session, look style)

/-! ## Steps -/

/-- One step and its answer. -/
def step (session : Session ν) : Step ν → Session ν × Answer ν
  | .new name text config context => session.declareText name text config context
  | .newFrom name value config context => session.declare name (.ofValue value) config context
  | .wrap name target config context => session.wrap name target config context
  | .copy name target => session.copy name target
  | .snapshot target => session.view target fun v _ => .snapshot (session.snapshot v)
  | .inspect target => session.view target fun v sheet => .inspection (.of v sheet)
  | .numberIn target type => session.view target fun v sheet =>
    answerOf (v.numberIn type sheet) .number
  | .segments target => session.segments target
  | .item target index => session.view target fun v sheet =>
    answerOf (v.item index sheet) fun
      | some primitive => .primitive primitive
      | none => .absent
  | .sameDeclaration target other => session.view target fun v _ =>
    match session.read? other with
    | some w => .truth (v.declaration == w.declaration)
    | none => .absent
  | .contextValue target property => session.view target fun v _ =>
    session.shown (Style.parentLookup? v.context property)
  | .describe target => session.view target fun v sheet => .text (v.describe sheet)
  | .resolveAgainst name property parent =>
    session.change (.value name) (·.resolveAgainst (parent.bind session.style?) property ·)
      .resolution
  | .resolve target property => session.change target (·.resolve property ·) .resolution
  | .bind target block => session.change target (·.bind block ·) .number
  | .setNumber target type value =>
    session.change target (·.setNumber type value ·) fun _ => .done
  | .setString target text => session.change target (·.setString text ·) fun _ => .done
  | .setText target text => session.change target (·.setText text ·) fun _ => .done
  | .writeText target text => session.write target fun id sheet => sheet.writeText id text
  | .writePrimitive target primitive => session.write target fun id sheet =>
    ⟨.ok (), (), sheet.write id (.ofPrimitive primitive), []⟩
  | .root name config =>
    let (style, sheet) := Style.root config session.sheet
    ({ session with sheet }.putStyle name style, .done)
  | .child name parent =>
    match session.style? parent with
    | some style => ((session.sealStyle parent).putStyle name style.childOf, .done)
    | none => (session, .absent)
  | .derive name property text =>
    session.changeStyle name (·.derive property text ·) fun session result =>
      let now := (session.style? name).bind (Style.lookup? property)
      .effect (result.map .resolution) (now.map session.snapshot)
  | .insert name property source => session.insert name property source
  | .pending name => session.viewStyle name fun style => .entries (session.pendingEntries style)
  | .bindStyle name block =>
    session.changeStyle name (·.bind block ·) fun _ result => answerOf result .count
  | .styleInfo name => session.viewStyle name fun style =>
    .styleInfo style.parent.isSome style.config
  | .parentValue name property => session.viewStyle name fun style =>
    session.shown (Style.parentLookup? style.parent property)
  | .report notice => (session.report [notice], .done)
  | .wasReported component message =>
    (session, .truth (session.log.reported component message))
  | .clearReports => ({ session with log := .empty }, .done)

/-- The answers of some steps, and the session after them. -/
def run (session : Session ν) : List (Step ν) → Session ν × List (Answer ν)
  | [] => (session, [])
  | step :: steps =>
    let (session, answer) := session.step step
    let (session, answers) := session.run steps
    (session, answer :: answers)

end ComputedCss.Session
