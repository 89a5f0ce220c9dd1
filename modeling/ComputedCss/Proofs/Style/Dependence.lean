import ComputedCss.Proofs.Keyed
import ComputedCss.Proofs.Style.Deriving

/-!
# What deriving depends on

A derivation reads the sheet only for the values that the parent hands down. Two sheets that extend
a common one, on which these values stand, give the same answers and the same states.

* `Sheet.Extends`: a sheet with further declarations, which leaves those of another alone.
* `Style.outlook`: the states and settings of the values of a style, without their declarations.
* `derive_congr`, `bind_congr`: equal outlooks give equal answers and equal outlooks.
-/

namespace ComputedCss

variable {ν : Type}

/-- The sheet has the declarations of another as they are, and perhaps further ones. -/
structure Sheet.Extends (sheet base : Sheet ν) : Prop where
  length : base.declarations.length ≤ sheet.declarations.length
  get : ∀ id, id < base.declarations.length → sheet.get id = base.get id

namespace Sheet.Extends

variable {sheet base : Sheet ν}

theorem refl (sheet : Sheet ν) : sheet.Extends sheet :=
  ⟨Nat.le_refl _, fun _ _ => rfl⟩

theorem write (h : sheet.Extends base) {id : DeclarationId} (hid : base.declarations.length ≤ id)
    (declaration : Declaration ν) : (sheet.write id declaration).Extends base := by
  refine ⟨?_, fun other hother => ?_⟩
  · show base.declarations.length ≤ (sheet.declarations.set id declaration).length
    rw [List.length_set]
    exact h.length
  · have hne : other ≠ id := Nat.ne_of_lt (Nat.lt_of_lt_of_le hother hid)
    exact (Sheet.get_write_of_ne hne declaration).trans (h.get other hother)

end Sheet.Extends

variable [Scalar ν]

namespace ComputedValue

variable {config : Config ν} {parent : Option (Style ν)} {property : Property}
  {sheet sheet' : Sheet ν}

theorem basis_congr (hget : ∀ source w, Style.parentLookup? parent source = some w →
    sheet'.get w.declaration = sheet.get w.declaration) (value : ν) (type : ValueType) :
    basis config parent property sheet' value type = basis config parent property sheet value type := by
  have hsize : fontSize config parent sheet' = fontSize config parent sheet := by
    unfold fontSize
    split
    · rename_i size hsize
      rw [number_congr (hget _ size hsize)]
    · rfl
  have hheight : lineHeight parent sheet' = lineHeight parent sheet := by
    unfold lineHeight
    split
    · rename_i height hheight
      rw [number_congr (hget _ height hheight)]
    · rfl
  unfold basis
  rw [hsize, hheight]

/-- What the style pass makes of a value depends on the state that is left after adopting, on the
settings, and on the parent's values. -/
theorem resolveAgainst_congr {v v' : Style.Entry ν}
    (hstate : (v'.adopt sheet').state = (v.adopt sheet).state) (hconfig : v'.config = v.config)
    (hget : ∀ source w, Style.parentLookup? parent source = some w →
      sheet'.get w.declaration = sheet.get w.declaration) (property : Property) :
    (v'.resolveAgainst parent property sheet').result =
      (v.resolveAgainst parent property sheet).result ∧
    (v'.resolveAgainst parent property sheet').subject.state =
      (v.resolveAgainst parent property sheet).subject.state ∧
    (v'.resolveAgainst parent property sheet').subject.config =
      (v.resolveAgainst parent property sheet).subject.config := by
  have hsettings : (v'.adopt sheet').config = (v.adopt sheet).config := by
    rw [config_adopt, config_adopt, hconfig]
  unfold resolveAgainst
  dsimp only
  rw [hstate]
  cases openNumber? (v.adopt sheet).state with
  | none => exact ⟨rfl, hstate, hsettings⟩
  | some number =>
    dsimp only
    rw [basis_congr hget, hsettings]
    cases (basis (v.adopt sheet).config parent property sheet number.1 number.2).run.value with
    | error error => exact ⟨rfl, hstate, hsettings⟩
    | ok basis =>
      cases basis with
      | length pixels =>
        unfold finish
        dsimp only [Outcome.map, Outcome.after]
        rw [hsettings]
        exact ⟨rfl, rfl, rfl⟩
      | layout axis => exact ⟨rfl, rfl, hsettings⟩

end ComputedValue

namespace Style

/-- The states of the values of a style and their settings, without their declarations. -/
def outlook (style : Style ν) : List (Property × Computation ν × Config ν) :=
  style.properties.map (Prod.map id fun v => (v.state, v.config))

variable {parent : Option (Style ν)} {style style' : Style ν} {property : Property}
  {declaration : Declaration ν} {v v' : Entry ν} {sheet sheet' base : Sheet ν}

/-! ## Resolving -/

theorem settle_of_closed (h : v.requiresComputation = false) (parent : Option (Style ν))
    (property : Property) (sheet : Sheet ν) :
    settle parent property v sheet = ⟨.ok .unchanged, v, sheet, []⟩ := by
  unfold settle
  rw [h]
  rfl

theorem settle_congr (hv : v.IsRead sheet) (hv' : v'.IsRead sheet') (hstate : v'.state = v.state)
    (hconfig : v'.config = v.config)
    (hget : ∀ source w, parentLookup? parent source = some w →
      sheet'.get w.declaration = sheet.get w.declaration) (property : Property) :
    (settle parent property v' sheet').result = (settle parent property v sheet).result ∧
    (settle parent property v' sheet').subject.state =
      (settle parent property v sheet).subject.state ∧
    (settle parent property v' sheet').subject.config =
      (settle parent property v sheet).subject.config := by
  have hrequires : v'.requiresComputation = v.requiresComputation := by
    unfold ComputedValue.requiresComputation
    rw [hstate]
  cases hopen : v.requiresComputation with
  | false =>
    rw [settle_of_closed hopen, settle_of_closed (hrequires.trans hopen)]
    exact ⟨rfl, hstate, hconfig⟩
  | true =>
    have hsettle : settle parent property v sheet = v.resolveAgainst parent property sheet := if_pos hopen
    have hsettle' : settle parent property v' sheet' = v'.resolveAgainst parent property sheet' :=
      if_pos (hrequires.trans hopen)
    rw [hsettle, hsettle']
    refine ComputedValue.resolveAgainst_congr ?_ hconfig hget property
    rw [hv.adopt_eq, hv'.adopt_eq, hstate]

/-! ## What is handed down -/

/-- The state and the settings of the value that a derivation resolves. -/
def handed (parent : Option (Style ν)) (config : Config ν) (property : Property)
    (declaration : Declaration ν) (base : Sheet ν) : Computation ν × Config ν :=
  if declaration.inherits then
    match parentLookup? parent property with
    | some w => (.ofValue w.config (base.get w.declaration).value, w.config)
    | none => (.ofValue config declaration.value, config)
  else (.ofValue config declaration.value, config)

/-- The values that a parent hands down stand on the sheet. -/
def Declares (base : Sheet ν) (parent : Option (Style ν)) : Prop :=
  ∀ property w, parentLookup? parent property = some w → w.declaration < base.declarations.length

theorem drawn_handed (style : Style ν) (hsheet : sheet.Extends base)
    (hdeclared : Declares base style.parent) (property : Property) (declaration : Declaration ν) :
    ((drawn property declaration style sheet).value.1.state,
      (drawn property declaration style sheet).value.1.config) =
      handed style.parent style.config property declaration base := by
  have hread : Computation.ofValue style.config
      ((sheet.add declaration).2.get (sheet.add declaration).1).value =
        .ofValue style.config declaration.value := by rw [Sheet.get_add_self]
  rw [drawn_eq, handed]
  dsimp only
  cases declaration.inherits with
  | false => exact Prod.ext hread rfl
  | true =>
    rw [if_pos rfl, if_pos rfl]
    cases hlookup : parentLookup? style.parent property with
    | none => exact Prod.ext hread rfl
    | some w =>
      have hw : w.declaration < base.declarations.length := hdeclared property w hlookup
      have hget : (sheet.add declaration).2.get w.declaration = base.get w.declaration :=
        (Sheet.get_add_of_lt (Nat.lt_of_lt_of_le hw hsheet.length) declaration).trans
          (hsheet.get _ hw)
      refine Prod.ext ?_ rfl
      show Computation.ofValue w.config ((sheet.add declaration).2.get w.declaration).value = _
      rw [hget]

theorem extends_drawn (hsheet : sheet.Extends base) :
    (drawn property declaration style sheet).value.2.Extends base := by
  constructor
  · rw [drawn_declarations, List.length_append]
    exact Nat.le_add_right_of_le hsheet.length
  · intro id hid
    rw [get_drawn _ _ _ (Nat.lt_of_lt_of_le hid hsheet.length)]
    exact hsheet.get id hid

theorem get_drawn_congr (hdeclared : Declares base parent) (hsheet : sheet.Extends base)
    (hsheet' : sheet'.Extends base) {declaration' : Declaration ν} {source : Property}
    {w : Entry ν} (hw : parentLookup? parent source = some w) :
    (drawn property declaration' style' sheet').value.2.get w.declaration =
      (drawn property declaration style sheet).value.2.get w.declaration := by
  have hid := hdeclared source w hw
  rw [(extends_drawn hsheet').get _ hid, (extends_drawn hsheet).get _ hid]

/-! ## Answers and outlooks -/

omit [Scalar ν] in
theorem outlook_set (style : Style ν) (property : Property) (v : Entry ν) :
    (style.set property v).outlook = put property (v.state, v.config) style.outlook :=
  map_put (fun v : Entry ν => (v.state, v.config)) property v style.properties

theorem deriveRead_congr (hparent : style'.parent = style.parent)
    (hconfig : style'.config = style.config) (houtlook : style'.outlook = style.outlook)
    (hdeclared : Declares base style.parent) (hsheet : sheet.Extends base)
    (hsheet' : sheet'.Extends base) (property : Property) (declaration : Declaration ν) :
    (deriveRead property declaration style' sheet').result =
      (deriveRead property declaration style sheet).result ∧
    (deriveRead property declaration style' sheet').subject.outlook =
      (deriveRead property declaration style sheet).subject.outlook := by
  have hdrawn := drawn_handed style hsheet hdeclared property declaration
  have hdrawn' := drawn_handed style' hsheet' (hparent ▸ hdeclared) property declaration
  rw [hparent, hconfig] at hdrawn'
  obtain ⟨hstate, hsettings⟩ := Prod.mk.inj (hdrawn'.trans hdrawn.symm)
  obtain ⟨hresult, hsubject, hsubjectConfig⟩ :=
    settle_congr isRead_drawn isRead_drawn hstate hsettings
      (fun source w hw => get_drawn_congr hdeclared hsheet hsheet' hw) property
  rw [deriveRead_eq, deriveRead_eq, hparent]
  dsimp only
  refine ⟨hresult, ?_⟩
  rw [hresult]
  cases (settle style.parent property (drawn property declaration style sheet).value.1
    (drawn property declaration style sheet).value.2).result with
  | error error => exact houtlook
  | ok resolution =>
    dsimp only
    rw [outlook_set, outlook_set, houtlook, hsubject, hsubjectConfig]

theorem derive_congr (hparent : style'.parent = style.parent) (hconfig : style'.config = style.config)
    (houtlook : style'.outlook = style.outlook) (hdeclared : Declares base style.parent)
    (hsheet : sheet.Extends base) (hsheet' : sheet'.Extends base) (property : Property)
    (text : String) :
    (style'.derive property text sheet').result = (style.derive property text sheet).result ∧
    (style'.derive property text sheet').subject.outlook =
      (style.derive property text sheet).subject.outlook := by
  cases hparse : (Value.parse? text : Except (ValueError ν) (Value ν)) with
  | error error =>
    rw [derive_of_error hparse, derive_of_error hparse]
    exact ⟨rfl, houtlook⟩
  | ok value =>
    rw [derive_of_ok hparse, derive_of_ok hparse]
    dsimp only [Outcome.after]
    exact deriveRead_congr hparent hconfig houtlook hdeclared hsheet hsheet' property _

/-! ## Binding -/

/-- The state of a value after its containing block is known. -/
def boundLook (block : ContainingBlock ν) (look : Computation ν × Config ν) :
    Computation ν × Config ν :=
  match look.1 with
  | .pendingLayout percentage _ axis =>
    (.absolute (look.2.snap (percentage / 100.0 * block.dimension axis)) .px, look.2)
  | _ => look

theorem look_bound (block : ContainingBlock ν) (v : Entry ν) :
    ((v.bound block).state, (v.bound block).config) = boundLook block (v.state, v.config) := by
  unfold ComputedValue.bound boundLook
  cases hstate : v.state with
  | pendingLayout percentage property axis => rfl
  | _ => exact Prod.ext hstate rfl

theorem bind_outlook (block : ContainingBlock ν) (style : Style ν) (sheet : Sheet ν) :
    (style.bind block sheet).result = .ok (style.outlook.countP (·.2.1.isPending)) ∧
    (style.bind block sheet).subject.outlook =
      style.outlook.map (Prod.map id (boundLook block)) := by
  obtain ⟨hresult, hsubject⟩ := bindEach_spec block style.properties sheet
  constructor
  · show (bindEach block style.properties sheet).result = _
    rw [hresult, outlook, List.countP_map]
    rfl
  · show (bindEach block style.properties sheet).subject.map _ = _
    rw [hsubject, outlook, List.map_map, List.map_map]
    refine List.map_congr_left fun entry _ => ?_
    exact Prod.ext rfl (look_bound block entry.2)

theorem bind_congr (houtlook : style'.outlook = style.outlook) (block : ContainingBlock ν) :
    (style'.bind block sheet').result = (style.bind block sheet).result ∧
    (style'.bind block sheet').subject.outlook = (style.bind block sheet).subject.outlook := by
  obtain ⟨hresult, hsubject⟩ := bind_outlook block style sheet
  obtain ⟨hresult', hsubject'⟩ := bind_outlook block style' sheet'
  rw [hresult, hsubject, hresult', hsubject', houtlook]
  exact ⟨rfl, rfl⟩

end Style

end ComputedCss
