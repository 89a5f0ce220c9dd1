import ComputedCss.Number.Exact
import ComputedCss.Proofs.Style.Dependence
import ComputedCss.Proofs.Style.Sound

/-!
# Siblings

Two children of one parent are derived and bound in turns. They share the declarations of the values
that they inherit, so one may see what the other has computed.

* `Siblings.seen`: what the second sibling sees of a run.
* `Isolated`: it sees the same when the calls on the first sibling are left out.
* `isolated_iff`: this holds exactly when a child that inherits has nothing left to compute.
-/

namespace ComputedCss

variable {ν : Type}

/-! ## Runs of two siblings -/

/-- What is asked of a style. -/
inductive Call (ν : Type) where
  | derive (property : Property) (text : String)
  | bind (block : ContainingBlock ν)

/-- What a style answers. -/
inductive Reply (ν : Type) where
  | resolution (resolution : Resolution ν)
  | count (n : Nat)

/-- One of two siblings. -/
inductive Sibling where
  | first
  | second
deriving DecidableEq

/-- Two children of one parent over a sheet. -/
structure Siblings (ν : Type) where
  first : Style ν
  second : Style ν
  sheet : Sheet ν

variable [Scalar ν]

/-- A call on a style. -/
def Call.on (call : Call ν) (style : Style ν) (sheet : Sheet ν) : Outcome ν (Style ν) (Reply ν) :=
  match call with
  | .derive property text => (style.derive property text sheet).map .resolution
  | .bind block => (style.bind block sheet).map .count

namespace Siblings

/-- Two new children of a parent. -/
def of (parent : Style ν) (sheet : Sheet ν) : Siblings ν :=
  ⟨parent.childOf, parent.childOf, sheet⟩

/-- A call on one of the siblings. -/
def step (siblings : Siblings ν) (sibling : Sibling) (call : Call ν) :
    Siblings ν × Except (ValueError ν) (Reply ν) :=
  match sibling with
  | .first =>
    let outcome := call.on siblings.first siblings.sheet
    ({ siblings with first := outcome.subject, sheet := outcome.sheet }, outcome.result)
  | .second =>
    let outcome := call.on siblings.second siblings.sheet
    ({ siblings with second := outcome.subject, sheet := outcome.sheet }, outcome.result)

/-- What the second sibling sees of a run: the answers to its calls, and in the end the states of its
values. -/
def seen (siblings : Siblings ν) : List (Sibling × Call ν) →
    List (Except (ValueError ν) (Reply ν)) × List (Property × Computation ν)
  | [] => ([], siblings.second.properties.map (Prod.map id ComputedValue.state))
  | (.first, call) :: calls => (siblings.step .first call).1.seen calls
  | (.second, call) :: calls =>
    let (siblings, reply) := siblings.step .second call
    let (replies, states) := siblings.seen calls
    (reply :: replies, states)

theorem seen_first (siblings : Siblings ν) (call : Call ν) (calls : List (Sibling × Call ν)) :
    siblings.seen ((.first, call) :: calls) = (siblings.step .first call).1.seen calls := rfl

theorem seen_second (siblings : Siblings ν) (call : Call ν) (calls : List (Sibling × Call ν)) :
    siblings.seen ((.second, call) :: calls) =
      ((siblings.step .second call).2 :: ((siblings.step .second call).1.seen calls).1,
        ((siblings.step .second call).1.seen calls).2) := rfl

end Siblings

/-- The second of two new children sees the same when the calls on the first are left out. -/
def Isolated (parent : Style ν) (sheet : Sheet ν) : Prop :=
  ∀ calls : List (Sibling × Call ν), (Siblings.of parent sheet).seen calls =
    (Siblings.of parent sheet).seen (calls.filter fun call => call.1 = .second)

/-- A child that inherits has nothing left to compute, or it cannot. -/
def Settled (parent : Style ν) (sheet : Sheet ν) : Prop :=
  ∀ property resolution, (parent.childOf.derive property "inherit" sheet).result = .ok resolution →
    resolution = .unchanged

/-! ## Inheriting -/

section

variable {parent style : Style ν} {property : Property} {declaration : Declaration ν}
  {sheet base : Sheet ν} {w : Style.Entry ν}

/-- The declaration that says `inherit`. -/
def Declaration.inherit : Declaration ν :=
  ⟨Text.trimmed "inherit", .single (.ident "inherit")⟩

theorem derive_inherit (property : Property) (style : Style ν) (sheet : Sheet ν) :
    (style.derive property "inherit" sheet).result =
      (Style.deriveRead property .inherit style sheet).result ∧
    (style.derive property "inherit" sheet).subject =
      (Style.deriveRead property .inherit style sheet).subject ∧
    (style.derive property "inherit" sheet).sheet =
      (Style.deriveRead property .inherit style sheet).sheet := by
  have hparse : (Value.parse? "inherit" : Except (ValueError ν) (Value ν)) =
      .ok (.single (.ident "inherit")) := by with_unfolding_all rfl
  rw [Style.derive_of_ok hparse]
  dsimp only [Outcome.after, Declaration.inherit]
  exact ⟨rfl, rfl, rfl⟩

omit [Scalar ν] in
theorem inherits_inherit : (Declaration.inherit : Declaration ν).inherits = true := by
  show ((Text.pieces (fun c => c == ',' || Text.isBlank c) (Text.trimmed "inherit").toList).any
    fun word => Text.caselessEq (String.ofList word) "inherit") = true
  decide +kernel

theorem handed_of_inherits {config : Config ν} (hinherits : declaration.inherits = true)
    (hw : parent.lookup? property = some w) :
    Style.handed (some parent) config property declaration base =
      (.ofValue w.config (base.get w.declaration).value, w.config) := by
  unfold Style.handed
  rw [if_pos hinherits, show Style.parentLookup? (some parent) property = some w from hw]

theorem unchanged_of_settled (hsettled : Settled parent base)
    (hdeclared : Style.Declares base (some parent)) (hparent : style.parent = some parent)
    (hsheet : sheet.Extends base) (hinherits : declaration.inherits = true)
    (hw : parent.lookup? property = some w) {resolution : Resolution ν}
    (hresult : (Style.settle (some parent) property
      (Style.drawn property declaration style sheet).value.1
      (Style.drawn property declaration style sheet).value.2).result = .ok resolution) :
    resolution = .unchanged := by
  -- The same value is handed down here and to a new child over the first sheet.
  have hbase := Sheet.Extends.refl base
  have hdrawn := Style.drawn_handed style hsheet (hparent.symm ▸ hdeclared) property declaration
  have hfirst := Style.drawn_handed parent.childOf hbase hdeclared property .inherit
  rw [hparent, handed_of_inherits hinherits hw] at hdrawn
  rw [show parent.childOf.parent = some parent from rfl, handed_of_inherits inherits_inherit hw]
    at hfirst
  obtain ⟨hstate, hconfig⟩ := Prod.mk.inj (hdrawn.trans hfirst.symm)
  obtain ⟨hsame, -, -⟩ :=
    Style.settle_congr Style.isRead_drawn Style.isRead_drawn hstate hconfig
      (fun source w hw => Style.get_drawn_congr hdeclared hbase hsheet hw) property
  apply hsettled property resolution
  rw [(derive_inherit property parent.childOf base).1, Style.deriveRead_eq]
  dsimp only
  exact hsame.symm.trans hresult

theorem fresh_drawn (hsettled : Settled parent base)
    (hdeclared : Style.Declares base (some parent)) (hparent : style.parent = some parent)
    (hsheet : sheet.Extends base) {resolution : Resolution ν}
    (hresult : (Style.settle (some parent) property
      (Style.drawn property declaration style sheet).value.1
      (Style.drawn property declaration style sheet).value.2).result = .ok resolution)
    (hresolution : resolution ≠ .unchanged) :
    base.declarations.length ≤
      (Style.drawn property declaration style sheet).value.1.declaration := by
  rcases Style.drawn_cases property declaration style sheet with hnew | ⟨hinherits, w, hw, -⟩
  · rw [hnew]
    exact hsheet.length
  · rw [hparent] at hw
    have hunchanged :=
      unchanged_of_settled hsettled hdeclared hparent hsheet hinherits hw hresult
    exact absurd hunchanged hresolution

end

/-! ## Isolation of settled parents -/

/-- A child of a parent that waits for layout only over declarations of its own. -/
structure Quiet (parent : Style ν) (base : Sheet ν) (style : Style ν) : Prop where
  config : style.config = parent.config
  parent : style.parent = some parent
  fresh : ∀ property v, (property, v) ∈ style.properties → v.isPending = true →
    base.declarations.length ≤ v.declaration

section

variable {parent style : Style ν} {property : Property} {sheet base : Sheet ν} {v : Style.Entry ν}

omit [Scalar ν] in
theorem quiet_childOf (parent : Style ν) (base : Sheet ν) : Quiet parent base parent.childOf :=
  ⟨rfl, rfl, fun _ _ hmem => absurd hmem List.not_mem_nil⟩

omit [Scalar ν] in
theorem Quiet.set (h : Quiet parent base style)
    (hv : v.isPending = true → base.declarations.length ≤ v.declaration) :
    Quiet parent base (style.set property v) := by
  refine ⟨h.config, h.parent, fun other w hmem hpending => ?_⟩
  rcases mem_put hmem with heq | hmem
  · obtain ⟨rfl, rfl⟩ := Prod.mk.inj heq
    exact hv hpending
  · exact h.fresh other w hmem hpending

theorem quiet_deriveRead (hsettled : Settled parent base)
    (hdeclared : Style.Declares base (some parent)) (hstyle : Quiet parent base style)
    (hsheet : sheet.Extends base) (property : Property) (declaration : Declaration ν) :
    Quiet parent base (Style.deriveRead property declaration style sheet).subject ∧
    (Style.deriveRead property declaration style sheet).sheet.Extends base := by
  let drawing := (Style.drawn property declaration style sheet).value
  have hpass : ComputedValue.StylePass style.parent property drawing.1 drawing.2
      (Style.settle style.parent property drawing.1 drawing.2) :=
    Style.stylePass_settle Style.isRead_drawn style.parent property
  have hdrawn : drawing.2.Extends base := Style.extends_drawn hsheet
  have hfresh : ∀ resolution,
      (Style.settle style.parent property drawing.1 drawing.2).result = .ok resolution →
      resolution ≠ .unchanged → base.declarations.length ≤ drawing.1.declaration := by
    rw [hstyle.parent]
    exact fun resolution => fresh_drawn hsettled hdeclared hstyle.parent hsheet
  rw [Style.deriveRead_eq]
  dsimp only
  generalize Style.settle style.parent property _ _ = settled at hpass hfresh ⊢
  cases hpass with
  | unchanged notices hopen =>
    refine ⟨hstyle.set fun hpending => ?_, hdrawn⟩
    rw [ComputedValue.not_isPending_of_openNumber? hopen] at hpending
    exact absurd hpending Bool.false_ne_true
  | failed error notices herror => exact ⟨hstyle, hdrawn⟩
  | resolved pixels notices hkind =>
    refine ⟨hstyle.set fun hpending => absurd hpending Bool.false_ne_true, ?_⟩
    exact hdrawn.write (hfresh _ rfl (by simp)) _
  | deferred value axis notices haxis hkind =>
    exact ⟨hstyle.set fun _ => hfresh _ rfl (by simp), hdrawn⟩

theorem quiet_bind (hstyle : Quiet parent base style) (hsheet : sheet.Extends base)
    (block : ContainingBlock ν) :
    Quiet parent base (style.bind block sheet).subject ∧
      (style.bind block sheet).sheet.Extends base := by
  obtain ⟨-, hsubject⟩ := Style.bindEach_spec block style.properties sheet
  obtain ⟨hlength, hget⟩ := Style.bindEach_sheet block style.properties sheet
  constructor
  · refine ⟨hstyle.config, hstyle.parent, fun property v hmem hpending => ?_⟩
    change (property, v) ∈ (Style.bindEach block style.properties sheet).subject at hmem
    rw [hsubject] at hmem
    obtain ⟨⟨other, w⟩, -, heq⟩ := List.mem_map.mp hmem
    obtain ⟨-, rfl⟩ := Prod.mk.inj heq
    have hbound : (w.bound block).isPending = true := hpending
    rw [ComputedValue.isPending_bound] at hbound
    exact absurd hbound Bool.false_ne_true
  · refine ⟨Nat.le_trans hsheet.length (Nat.le_of_eq hlength.symm), fun id hid => ?_⟩
    refine (hget id fun entry hentry hpending => ?_).trans (hsheet.get id hid)
    exact (Nat.ne_of_lt (Nat.lt_of_lt_of_le hid (hstyle.fresh _ _ hentry hpending))).symm

theorem quiet_on (hsettled : Settled parent base)
    (hdeclared : Style.Declares base (some parent)) (hstyle : Quiet parent base style)
    (hsheet : sheet.Extends base) (call : Call ν) :
    Quiet parent base (call.on style sheet).subject ∧ (call.on style sheet).sheet.Extends base := by
  cases call with
  | derive property text =>
    show Quiet parent base (style.derive property text sheet).subject ∧
      (style.derive property text sheet).sheet.Extends base
    cases hparse : (Value.parse? text : Except (ValueError ν) (Value ν)) with
    | error error =>
      rw [Style.derive_of_error hparse]
      exact ⟨hstyle, hsheet⟩
    | ok value =>
      rw [Style.derive_of_ok hparse]
      dsimp only [Outcome.after]
      exact quiet_deriveRead hsettled hdeclared hstyle hsheet property _
  | bind block => exact quiet_bind hstyle hsheet block

theorem on_congr {style' : Style ν} {sheet' : Sheet ν}
    (hdeclared : Style.Declares base (some parent)) (hstyle : Quiet parent base style)
    (hstyle' : Quiet parent base style') (houtlook : style'.outlook = style.outlook)
    (hsheet : sheet.Extends base) (hsheet' : sheet'.Extends base) (call : Call ν) :
    (call.on style' sheet').result = (call.on style sheet).result ∧
      (call.on style' sheet').subject.outlook = (call.on style sheet).subject.outlook := by
  cases call with
  | derive property text =>
    obtain ⟨hresult, hsubject⟩ := Style.derive_congr (hstyle'.parent.trans hstyle.parent.symm)
      (hstyle'.config.trans hstyle.config.symm) houtlook (hstyle.parent.symm ▸ hdeclared) hsheet
      hsheet' property text
    exact ⟨congrArg (Except.map Reply.resolution) hresult, hsubject⟩
  | bind block =>
    obtain ⟨hresult, hsubject⟩ := Style.bind_congr houtlook block
    exact ⟨congrArg (Except.map Reply.count) hresult, hsubject⟩

theorem seen_eq (hsettled : Settled parent base) (hdeclared : Style.Declares base (some parent))
    {siblings alone : Siblings ν} (hfirst : Quiet parent base siblings.first)
    (hsecond : Quiet parent base siblings.second) (halone : Quiet parent base alone.second)
    (houtlook : alone.second.outlook = siblings.second.outlook)
    (hsheet : siblings.sheet.Extends base) (hsheet' : alone.sheet.Extends base)
    (calls : List (Sibling × Call ν)) :
    siblings.seen calls = alone.seen (calls.filter fun call => call.1 = .second) := by
  induction calls generalizing siblings alone with
  | nil =>
    have hstates : ∀ style : Style ν, style.properties.map (Prod.map id ComputedValue.state) =
        style.outlook.map (Prod.map id Prod.fst) := fun style => by
      rw [Style.outlook, List.map_map]
      rfl
    show ([], _) = ([], _)
    rw [hstates, hstates, houtlook]
  | cons entry calls ih =>
    obtain ⟨sibling, call⟩ := entry
    cases sibling with
    | first =>
      -- The run alone skips the call, which has left the first declarations as they were.
      obtain ⟨hquiet, hextends⟩ := quiet_on hsettled hdeclared hfirst hsheet call
      exact ih hquiet hsecond halone houtlook hextends hsheet'
    | second =>
      -- Both runs make the call, on styles with one outlook.
      obtain ⟨hquiet, hextends⟩ := quiet_on hsettled hdeclared hsecond hsheet call
      obtain ⟨hquiet', hextends'⟩ := quiet_on hsettled hdeclared halone hsheet' call
      obtain ⟨hresult, hsubject⟩ := on_congr hdeclared hsecond halone houtlook hsheet hsheet' call
      have hrest : (siblings.step .second call).1.seen calls =
          (alone.step .second call).1.seen (calls.filter fun call => call.1 = .second) :=
        ih hfirst hquiet hquiet' hsubject hextends hextends'
      have hreply : (siblings.step .second call).2 = (alone.step .second call).2 := hresult.symm
      have hkept : ((Sibling.second, call) :: calls).filter (fun call => call.1 = .second) =
          (.second, call) :: calls.filter fun call => call.1 = .second := rfl
      rw [hkept, Siblings.seen_second, Siblings.seen_second, hreply, hrest]

end

/-! ## Parents that hand down something to compute -/

section

variable {parent : Style ν} {property : Property} {sheet base : Sheet ν} {w : Style.Entry ν}

/-- The declaration says a number of pixels. -/
def Sheet.SaysPixels (sheet : Sheet ν) (id : DeclarationId) : Prop :=
  ∃ pixels, sheet.get id = .ofPrimitive (.numeric pixels .px)

theorem derive_inherit_of_closed (hdeclared : Style.Declares sheet (some parent))
    (hclosed : (Style.handed (some parent) parent.config property .inherit sheet).1.isOpen = false) :
    (parent.childOf.derive property "inherit" sheet).result = .ok .unchanged := by
  have hdrawn := Style.drawn_handed parent.childOf (Sheet.Extends.refl sheet) hdeclared property
    .inherit
  have hstate : (Style.drawn property .inherit parent.childOf sheet).value.1.state =
      (Style.handed (some parent) parent.config property .inherit sheet).1 :=
    congrArg Prod.fst hdrawn
  rw [(derive_inherit property parent.childOf sheet).1, Style.deriveRead_eq]
  dsimp only
  rw [Style.settle_of_closed]
  unfold ComputedValue.requiresComputation
  rw [hstate, hclosed]

theorem derive_inherit_of_none (hdeclared : Style.Declares sheet (some parent))
    (hw : parent.lookup? property = none) :
    (parent.childOf.derive property "inherit" sheet).result = .ok .unchanged := by
  refine derive_inherit_of_closed hdeclared ?_
  unfold Style.handed
  rw [if_pos inherits_inherit, show Style.parentLookup? (some parent) property = none from hw]
  rfl

theorem derive_inherit_of_pixels (hdeclared : Style.Declares sheet (some parent))
    (hw : parent.lookup? property = some w) (hpx : sheet.SaysPixels w.declaration) :
    (parent.childOf.derive property "inherit" sheet).result = .ok .unchanged := by
  obtain ⟨pixels, hget⟩ := hpx
  refine derive_inherit_of_closed hdeclared ?_
  rw [handed_of_inherits inherits_inherit hw, hget]
  rfl

theorem saysPixels_bind (parent : Style ν) (property : Property) (v : Style.Entry ν)
    (hid : v.declaration < sheet.declarations.length)
    (h : v.isPending = true ∨ sheet.SaysPixels v.declaration) (block : ContainingBlock ν) :
    let bound := (parent.childOf.set property v).bind block sheet
    bound.sheet.declarations.length = sheet.declarations.length ∧
      bound.sheet.SaysPixels v.declaration := by
  show (Style.bindEach block [(property, v)] sheet).sheet.declarations.length = _ ∧
    (Style.bindEach block [(property, v)] sheet).sheet.SaysPixels v.declaration
  refine ⟨(Style.bindEach_sheet block [(property, v)] sheet).1, ?_⟩
  cases hv : v.isPending with
  | true =>
    obtain ⟨pixels, hbind⟩ := Style.bindEach_of_isPending hv block property [] sheet
    rw [hbind]
    exact ⟨pixels, Sheet.get_write_self hid _⟩
  | false =>
    rw [hv] at h
    obtain ⟨pixels, hpixels⟩ := h.resolve_left Bool.false_ne_true
    rw [Style.bindEach_of_not_isPending hv]
    exact ⟨pixels, hpixels⟩

theorem declaration_drawn_inherit (hw : parent.lookup? property = some w) :
    (Style.drawn property .inherit parent.childOf base).value.1.declaration = w.declaration := by
  rw [Style.drawn_eq]
  dsimp only
  rw [if_pos inherits_inherit,
    show Style.parentLookup? parent.childOf.parent property = some w from hw]
  rfl

theorem saysPixels_of_bound (hdeclared : Style.Declares base (some parent))
    (hw : parent.lookup? property = some w) {resolution : Resolution ν}
    (hresult : (parent.childOf.derive property "inherit" base).result = .ok resolution)
    (hresolution : resolution ≠ .unchanged) (block : ContainingBlock ν) :
    let derived := parent.childOf.derive property "inherit" base
    let bound := derived.subject.bind block derived.sheet
    base.declarations.length ≤ bound.sheet.declarations.length ∧
      bound.sheet.SaysPixels w.declaration := by
  obtain ⟨heq, hsubject, hsheet⟩ := derive_inherit property parent.childOf base
  have hshared : (Style.drawn property .inherit parent.childOf base).value.1.declaration =
      w.declaration := declaration_drawn_inherit hw
  have hlength : base.declarations.length ≤
      (Style.drawn property .inherit parent.childOf base).value.2.declarations.length :=
    (Style.extends_drawn (Sheet.Extends.refl base)).length
  have hpass : ComputedValue.StylePass parent.childOf.parent property _ _
      (Style.settle parent.childOf.parent property
        (Style.drawn property .inherit parent.childOf base).value.1
        (Style.drawn property .inherit parent.childOf base).value.2) :=
    Style.stylePass_settle Style.isRead_drawn parent.childOf.parent property
  dsimp only
  rw [heq, Style.deriveRead_eq] at hresult
  rw [hsubject, hsheet, Style.deriveRead_eq]
  dsimp only at hresult ⊢
  generalize Style.settle parent.childOf.parent property _ _ = settled at hpass hresult ⊢
  generalize (Style.drawn property .inherit parent.childOf base).value = drawing at hshared hlength hpass
  obtain ⟨v, sheet⟩ := drawing
  have hid : v.declaration < sheet.declarations.length := by
    rw [hshared]
    exact Nat.lt_of_lt_of_le (hdeclared property w hw) hlength
  rw [← hshared]
  -- The copy is resolved and writes its pixels at once, or it waits and writes them when it is bound.
  cases hpass with
  | unchanged notices hopen => exact absurd (Except.ok.inj hresult).symm hresolution
  | failed error notices herror => exact absurd hresult (by simp)
  | resolved pixels notices hkind =>
    let finished := v.finish pixels sheet
    have hwritten : finished.sheet.declarations.length = sheet.declarations.length := List.length_set
    have hpx : finished.sheet.SaysPixels finished.subject.declaration :=
      ⟨_, Sheet.get_write_self hid _⟩
    have hbound :=
      saysPixels_bind parent property finished.subject (hwritten.symm ▸ hid) (.inr hpx) block
    exact ⟨Nat.le_trans hlength (Nat.le_of_eq (hbound.1.trans hwritten).symm), hbound.2⟩
  | deferred value axis notices haxis hkind =>
    let waiting : Style.Entry ν := { v with state := .pendingLayout value property axis }
    have hbound := saysPixels_bind parent property waiting hid (.inl rfl) block
    exact ⟨Nat.le_trans hlength (Nat.le_of_eq hbound.1.symm), hbound.2⟩

theorem settled_of_isolated (hdeclared : Style.Declares base (some parent))
    (h : Isolated parent base) : Settled parent base := by
  intro property resolution hresult
  by_contra hresolution
  cases hw : parent.lookup? property with
  | none =>
    rw [derive_inherit_of_none hdeclared hw] at hresult
    exact hresolution (Except.ok.inj hresult).symm
  | some w =>
    let block : ContainingBlock ν := ⟨0.0, 0.0⟩
    let derived := parent.childOf.derive property "inherit" base
    let bound := derived.subject.bind block derived.sheet
    obtain ⟨hlength, hpx⟩ := saysPixels_of_bound hdeclared hw hresult hresolution block
    have hdeclared' : Style.Declares bound.sheet (some parent) := fun source v hv =>
      Nat.lt_of_lt_of_le (hdeclared source v hv) hlength
    have hafter : (parent.childOf.derive property "inherit" bound.sheet).result = .ok .unchanged :=
      derive_inherit_of_pixels hdeclared' hw hpx
    have hcalls := h [(.first, .derive property "inherit"), (.first, .bind block),
      (.second, .derive property "inherit")]
    have hkept : [(Sibling.first, Call.derive property "inherit"), (.first, .bind block),
        (.second, .derive property "inherit")].filter (fun call => call.1 = .second) =
        [(.second, .derive property "inherit")] := rfl
    rw [hkept, Siblings.seen_first, Siblings.seen_first, Siblings.seen_second,
      Siblings.seen_second] at hcalls
    have hreply := (List.cons.inj (Prod.mk.inj hcalls).1).1
    simp only [Siblings.step, Siblings.of, Call.on, Outcome.map] at hreply
    rw [hafter, hresult] at hreply
    exact hresolution (Reply.resolution.inj (Except.ok.inj hreply)).symm

end

/-! ## The exact condition -/

/-- **Siblings are isolated exactly when nothing that the parent hands down is left to compute.** The
values of the parent stand on the sheet, as they do in every tree of styles. -/
theorem isolated_iff {parent : Style ν} {sheet : Sheet ν}
    (hdeclared : ∀ property v, parent.lookup? property = some v →
      v.declaration < sheet.declarations.length) :
    Isolated parent sheet ↔
      ∀ property resolution,
        (parent.childOf.derive property "inherit" sheet).result = .ok resolution →
          resolution = .unchanged := by
  have hquiet := quiet_childOf parent sheet
  have hrefl := Sheet.Extends.refl sheet
  constructor
  · exact settled_of_isolated hdeclared
  · intro hsettled calls
    exact seen_eq hsettled hdeclared hquiet hquiet hquiet rfl hrefl hrefl calls

/-- A root style, with the sheet on which it stands. -/
def plainRoot : Style Rat × Sheet Rat :=
  Style.root .standard .empty

theorem isolated_plainRoot : Isolated plainRoot.1 plainRoot.2 := by
  have hline : ∀ ancestor, plainRoot.1.Lineage ancestor → ancestor.Sound plainRoot.2 := by
    intro ancestor hancestor
    rcases hancestor.self_or_parent with rfl | ⟨parent, hparent, -⟩
    · exact Style.sound_root _ _
    · exact absurd hparent (by simp [plainRoot, Style.root])
  have hdeclared : Style.Declares plainRoot.2 (some plainRoot.1) := fun property v hv =>
    Style.declared_of_lookup? hline hv
  refine (isolated_iff hdeclared).mpr fun property resolution hresult => ?_
  cases hw : plainRoot.1.lookup? property with
  | none =>
    rw [derive_inherit_of_none hdeclared hw] at hresult
    exact (Except.ok.inj hresult).symm
  | some w =>
    have hmem : (property, w) ∈ plainRoot.1.properties := mem_of_lookup hw
    obtain ⟨-, hw'⟩ := Prod.mk.inj (List.mem_singleton.mp hmem)
    have hpx : plainRoot.2.SaysPixels w.declaration := by
      rw [hw']
      exact ⟨_, rfl⟩
    rw [derive_inherit_of_pixels hdeclared hw hpx] at hresult
    exact (Except.ok.inj hresult).symm

/-- A root style half as high as its containing block, which is not known yet. -/
def halfHigh : Outcome Rat (Style Rat) (Resolution Rat) :=
  plainRoot.1.derive .height "50%" plainRoot.2

/-- One child inherits the height and is bound before the other inherits it. -/
def boundFirst : List (Sibling × Call Rat) :=
  [(.first, .derive .height "inherit"), (.first, .bind ⟨1000, 400⟩),
    (.second, .derive .height "inherit")]

/-- The child that comes second takes the height of the first one. -/
theorem not_isolated_halfHigh : ¬ Isolated halfHigh.subject halfHigh.sheet := by
  intro h
  have hstates := congrArg (fun seen => seen.2.map fun entry => entry.2.isPending) (h boundFirst)
  exact absurd hstates (by decide +kernel)

end ComputedCss
