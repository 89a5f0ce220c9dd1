import ComputedCss.Style.Derivation
import ComputedCss.ComputedValue.Writers

/-!
# Sessions

A session holds named computed values and named styles over one sheet, and the log of what has been
reported. It goes on in steps, and every step has an answer.

* `Target` says which computed value a step is about.
* A style that has become the parent of another, or the context of a value, is sealed: a step that
  would change it does nothing. Its declarations can still be written through other holders.
-/

namespace ComputedCss

/-- The computed value that a step is about. -/
inductive Target where
  /-- A named value. -/
  | value (name : String)
  /-- The value of a property of a named style. -/
  | property (style : String) (property : Property)
deriving DecidableEq, Repr

/-- A step of a session. -/
inductive Step (ν : Type) where
  -- Making values
  | new (name text : String) (config : Config ν) (context : Option String)
  | newFrom (name : String) (value : Value ν) (config : Config ν) (context : Option String)
  | wrap (name : String) (target : Target) (config : Config ν) (context : Option String)
  | copy (name : String) (target : Target)
  -- Reading values
  | snapshot (target : Target)
  | inspect (target : Target)
  | numberIn (target : Target) (type : ValueType)
  | segments (target : Target)
  | item (target : Target) (index : Nat)
  | sameDeclaration (target other : Target)
  | contextValue (target : Target) (property : Property)
  | describe (target : Target)
  -- Resolving and writing values
  | resolveAgainst (name : String) (property : Property) (parent : Option String)
  | resolve (target : Target) (property : Property)
  | bind (target : Target) (block : ContainingBlock ν)
  | setNumber (target : Target) (type : ValueType) (value : ν)
  | setString (target : Target) (text : String)
  | setText (target : Target) (text : String)
  | writeText (target : Target) (text : String)
  | writePrimitive (target : Target) (primitive : Primitive ν)
  -- Styles
  | root (style : String) (config : Config ν)
  | child (style parent : String)
  | derive (style : String) (property : Property) (text : String)
  | insert (style : String) (property : Property) (name : String)
  | pending (style : String)
  | bindStyle (style : String) (block : ContainingBlock ν)
  | styleInfo (style : String)
  | parentValue (style : String) (property : Property)
  -- Notices
  | report (notice : Notice)
  | wasReported (component message : String)
  | clearReports

/-- The text of a declaration next to the state of one of its holders. -/
structure Snapshot (ν : Type) where
  text : String
  computation : Computation ν

/-- Everything that can be read from a computed value. -/
structure Inspection (ν : Type) where
  text : String
  raw : Value ν
  computation : Computation ν
  isScalar : Bool
  isList : Bool
  requiresComputation : Bool
  isPending : Bool
  hasInherit : Bool
  specifiedType : Option ValueType
  hasContext : Bool
  config : Config ν
  number : Except (ValueError ν) ν
  string : Except (ValueError ν) String
  color : Except (ValueError ν) Color
  type : Except (ValueError ν) ValueType
  counter : Except (ValueError ν) Counter
  rect : Except (ValueError ν) (Rect ν)
  items : Except (ValueError ν) (List (Primitive ν))

/-- What a step that resolves or writes a value answers when it succeeds. -/
inductive Effect (ν : Type) where
  | done
  | number (value : ν)
  | resolution (resolution : Resolution ν)

/-- The answer of a step. -/
inductive Answer (ν : Type) where
  /-- The step was about nothing. -/
  | absent
  | done
  | failed (error : ValueError ν)
  | snapshot (snapshot : Snapshot ν)
  | inspection (inspection : Inspection ν)
  | number (value : ν)
  | texts (texts : List String)
  | primitive (primitive : Primitive ν)
  | truth (value : Bool)
  | text (text : String)
  /-- The effect of a step, and the value after it. -/
  | effect (result : Except (ValueError ν) (Effect ν)) (now : Option (Snapshot ν))
  /-- The value that stood in the place of another. -/
  | replaced (old : Option (Snapshot ν))
  | entries (entries : List (String × String))
  | count (n : Nat)
  | styleInfo (hasParent : Bool) (config : Config ν)

/-- A style of a session. -/
structure NamedStyle (ν : Type) where
  style : Style ν
  isSealed : Bool

/-- The values and styles of a session, their sheet, and the log. -/
structure Session (ν : Type) where
  sheet : Sheet ν
  values : List (String × Style.Entry ν)
  styles : List (String × NamedStyle ν)
  log : Log

namespace Session

variable {ν : Type}

/-- A session without values and styles. -/
def empty : Session ν := ⟨.empty, [], [], .empty⟩

/-! ## Finding -/

/-- A style by its name. -/
def style? (session : Session ν) (name : String) : Option (Style ν) :=
  (session.styles.lookup name).map NamedStyle.style

/-- A style that may still change, by its name. -/
def openStyle? (session : Session ν) (name : String) : Option (Style ν) :=
  (session.styles.lookup name).bind fun named => if named.isSealed then none else some named.style

/-- The value that a step reads: on a style, inherited values count. -/
def read? (session : Session ν) : Target → Option (Style.Entry ν)
  | .value name => session.values.lookup name
  | .property style property => (session.style? style).bind (Style.lookup? property)

/-- The value that a step changes: on a style, only its own values count. -/
def own? (session : Session ν) : Target → Option (Style.Entry ν)
  | .value name => session.values.lookup name
  | .property style property => (session.openStyle? style).bind (Style.own? · property)

/-! ## Storing -/

/-- Stores a value under a name. -/
def putValue (session : Session ν) (name : String) (value : Style.Entry ν) : Session ν :=
  { session with values := put name value session.values }

/-- Stores a style that may change under a name. -/
def putStyle (session : Session ν) (name : String) (style : Style ν) : Session ν :=
  { session with styles := put name ⟨style, false⟩ session.styles }

/-- Seals a style. -/
def sealStyle (session : Session ν) (name : String) : Session ν :=
  match session.style? name with
  | some style => { session with styles := put name ⟨style, true⟩ session.styles }
  | none => session

/-- Stores a value where a step found it. -/
def replace (session : Session ν) (target : Target) (value : Style.Entry ν) : Session ν :=
  match target with
  | .value name => session.putValue name value
  | .property style property =>
    match session.openStyle? style with
    | some old => session.putStyle style (old.set property value)
    | none => session

/-- Reports notices to the log. -/
def report (session : Session ν) (notices : List Notice) : Session ν :=
  { session with log := (session.log.recordAll notices).1 }

variable [Scalar ν]

/-- What a value shows of itself. -/
def snapshot (session : Session ν) (value : Style.Entry ν) : Snapshot ν :=
  ⟨value.text session.sheet, value.state⟩

end Session

/-- Reads everything from a computed value. -/
def Inspection.of {ν : Type} [Scalar ν] (v : Style.Entry ν) (sheet : Sheet ν) : Inspection ν where
  text := v.text sheet
  raw := (sheet.get v.declaration).value
  computation := v.state
  isScalar := v.isScalar
  isList := v.isList
  requiresComputation := v.requiresComputation
  isPending := v.isPending
  hasInherit := v.hasInherit sheet
  specifiedType := v.specifiedType
  hasContext := v.context.isSome
  config := v.config
  number := v.number sheet
  string := v.string sheet
  color := v.color sheet
  type := v.type sheet
  counter := v.counter sheet
  rect := v.rect sheet
  items := v.listItems sheet

end ComputedCss
