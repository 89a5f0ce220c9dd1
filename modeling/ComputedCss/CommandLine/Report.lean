import ComputedCss.CommandLine.Options
import ComputedCss.Json.Printer
import ComputedCss.Json.Values
import ComputedCss.Style.Derivation

/-!
# The report of a command

The command computes one value against a parent style that is made up from the options, and reports
what it found, as lines for a terminal or as JSON.

* `Report.compute` is the computation, with the notices raised on the way.
-/

namespace ComputedCss.CommandLine

/-- Everything that is known about a computed value. -/
structure Report where
  property : Property
  specified : String
  computed : String
  kind : ValueKind
  state : Computation Float
  resolution : Resolution Float
  number : Option Float
  color : Option Color
  segments : List String
  specifiedType : Option ValueType
  type : Option ValueType

namespace Report

/-- The result of an operation, what it was about, and the sheet after it. -/
def ofOutcome {σ α : Type} (outcome : Outcome Float σ α) :
    Reading Float (α × σ × Sheet Float) :=
  let result : Except (ValueError Float) (α × σ × Sheet Float) :=
    outcome.result.map fun a => (a, outcome.subject, outcome.sheet)
  ExceptT.mk ⟨result, outcome.notices⟩

/-- Sets a property of a style to a length in pixels, if there is one. -/
def setLength (property : Property) (length : Option Float) (style : Style Float)
    (sheet : Sheet Float) : Reading Float (Style Float × Sheet Float) :=
  match length with
  | none => pure (style, sheet)
  | some pixels => do
    let (_, style, sheet) ←
      ofOutcome (style.derive property (Scalar.text pixels ++ "px") sheet)
    pure (style, sheet)

/-- The containing block that the options give, if they give one of its dimensions. The other one
counts as zero then. -/
def block? (options : Options) : Option (ContainingBlock Float) :=
  if options.blockWidth.isSome || options.blockHeight.isSome then
    some ⟨options.blockWidth.getD 0.0, options.blockHeight.getD 0.0⟩
  else none

/-- Completes a pending value when there is a containing block. -/
def layOut (block : Option (ContainingBlock Float)) (v : Style.Entry Float)
    (resolution : Resolution Float) (sheet : Sheet Float) :
    Reading Float (Resolution Float × Style.Entry Float × Sheet Float) :=
  match block with
  | some block =>
    if v.isPending then do
      let (pixels, v, sheet) ← ofOutcome (v.bind block sheet)
      pure (.resolved pixels, v, sheet)
    else pure (resolution, v, sheet)
  | none => pure (resolution, v, sheet)

/-- What is known about a value. -/
def of (property : Property) (specified : String) (resolution : Resolution Float)
    (v : Style.Entry Float) (sheet : Sheet Float) : Report where
  property := property
  specified := specified
  computed := v.text sheet
  kind := v.kind
  state := v.state
  resolution := resolution
  number := (v.number sheet).toOption
  color := (v.color sheet).toOption
  segments := (v.segmentsOf sheet).1
  specifiedType := v.specifiedType
  type := (v.type sheet).toOption

/-- Computes the value of a command. There is a report whenever there is no error, because a style
has a value for each property that has been derived. -/
def compute (options : Options) (config : Config Float) :
    Reading Float (Option Report) := do
  let config :=
    if options.keepsFractions then { config with snapsToPixels := false } else config
  let (parent, sheet) := Style.root config .empty
  let (parent, sheet) ← setLength .fontSize options.parentFontSize parent sheet
  let (parent, sheet) ← setLength .lineHeight options.parentLineHeight parent sheet
  let property := Property.ofName options.property
  let (resolution, style, sheet) ←
    ofOutcome (parent.childOf.derive property options.value sheet)
  match style.own? property with
  | none => pure none
  | some v => do
    let (resolution, v, sheet) ← layOut (block? options) v resolution sheet
    pure (some (of property options.value resolution v sheet))

/-! ## Terminal -/

/-- Bold text. -/
def bold (text : String) : String := "\x1b[1m" ++ text ++ "\x1b[0m"

/-- Green text. -/
def green (text : String) : String := "\x1b[32m" ++ text ++ "\x1b[39m"

/-- Yellow text. -/
def yellow (text : String) : String := "\x1b[33m" ++ text ++ "\x1b[39m"

/-- What the resolution did. -/
def resolutionLines : Resolution Float → List String
  | .resolved pixels => ["  resolved to " ++ Scalar.text pixels ++ "px"]
  | .pendingLayout _ percentage axis =>
    ["  " ++ yellow ("pending: " ++ Scalar.text percentage ++ "% of the containing block " ++
      axis.name)]
  | .unchanged => []

/-- A line for something that may be missing. -/
def optionalLine {α : Type} (write : α → String) : Option α → List String
  | some a => ["  " ++ write a]
  | none => []

/-- The segments of a list, numbered from zero. -/
def segmentLines (report : Report) : List String :=
  match report.kind with
  | .scalar => []
  | .list => report.segments.mapIdx fun i segment => "  [" ++ toString i ++ "] " ++ segment

/-- The lines of a report. -/
def lines (report : Report) : List String :=
  let name := report.property.name ++ ": "
  [bold "specified" ++ " " ++ name ++ report.specified,
    bold "computed " ++ " " ++ name ++ green report.computed] ++
  resolutionLines report.resolution ++
  optionalLine (fun type => "specified unit: " ++ ValueType.description type)
    report.specifiedType ++
  optionalLine (fun type => "unit: " ++ ValueType.description type) report.type ++
  optionalLine (fun number => "number: " ++ Scalar.text number) report.number ++
  optionalLine
    (fun color => "color: " ++ Color.toHex color ++ " (alpha " ++ toString color.alpha.toNat ++ ")")
    report.color ++
  segmentLines report

/-! ## JSON -/

/-- A report as JSON. -/
def toJson (report : Report) : Json :=
  .object [
    ("property", .string report.property.name),
    ("specified", .string report.specified),
    ("computed", .string report.computed),
    ("kind", .string report.kind.name),
    ("state", report.state.toJson .number),
    ("resolution", report.resolution.toJson .number),
    ("px", (report.number.map Json.number).getD .null),
    ("color", (report.color.map Color.toJson).getD .null),
    ("segments", .array (report.segments.map .string))]

end Report

end ComputedCss.CommandLine
