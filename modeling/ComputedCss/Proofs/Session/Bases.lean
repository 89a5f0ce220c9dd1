import ComputedCss.Number.Double
import ComputedCss.Number.Exact
import ComputedCss.Proofs.ComputedValue.Bases
import ComputedCss.Proofs.Session.Answers
import ComputedCss.Proofs.Session.Completion
import ComputedCss.Proofs.Session.Typed

/-!
# Bases in a tree of styles

What is resolved is a multiple of a number of the parent, whose unit is not looked at. So it is right
exactly if the font size and the line height of the parent are not numbers of another unit. A line
height can be a plain number, and then it counts as so many pixels.

* `canonical_of_run`: a number in a state is one of pixels, or no length.
* `BasedInPixels`: everything that is resolved against a parent is a multiple of a length.
* `basedInPixels_iff`: the parents for which this is so.
-/

namespace ComputedCss

variable {ν : Type} [Scalar ν]

/-! ## Units of numbers -/

namespace ComputedValue

variable {v w : Style.Entry ν} {sheet : Sheet ν}

/-- If the value has a number, it is one of pixels, or of a unit that is neither relative nor a
length. -/
def Canonical (v : Style.Entry ν) : Prop :=
  ∀ x unit, v.state = .absolute x unit →
    unit = .px ∨ unit.isRelative = false ∧ unit.isAbsoluteLength = false

theorem canonical_of_ofValue {declaration : Declaration ν} {config : Config ν}
    (hstate : v.state = Computation.ofValue config declaration.value) : v.Canonical := by
  intro x unit habsolute
  rcases Computation.ofValue_eq_absolute (hstate.symm.trans habsolute) with hpx | hother
  · exact .inl hpx
  · exact .inr ⟨hother.plain, hother.noLength⟩

theorem canonical_on (h : v.Canonical) (operation : Operation ν) (sheet : Sheet ν) :
    (operation.on v sheet).subject.Canonical := by
  have hacts := Operation.acts_on operation v sheet
  generalize operation.on v sheet = outcome at hacts ⊢
  cases hacts with
  | failed => exact h
  | wrote declaration notices hwrites => exact canonical_of_ofValue rfl
  | passed outcome hoperation hpass =>
    cases hpass with
    | closed | failed => exact h
    | adopted x type y type' effect notices hstate hread => exact canonical_of_ofValue hread.symm
    | finished pixels effect notices hopen =>
      intro x unit habsolute
      exact .inl (Computation.absolute.inj habsolute).2.symm
    | deferred x property axis effect notices hnumber haxis =>
      intro x unit habsolute
      exact absurd habsolute (by simp)

theorem invariant_canonical : Invariant (ν := ν) Canonical where
  made _ _ _ _ := canonical_of_ofValue rfl
  kept := canonical_on

end ComputedValue

open ComputedValue

theorem Session.canonical_of_run (steps : List (Step ν)) {v : Style.Entry ν}
    (h : (empty.run steps).1.Holds v) : v.Canonical :=
  invariant_canonical.of_run steps h

/-! ## Parents -/

/-- If the value has a number, it is one of pixels. -/
def ComputedValue.InPixels (w : Style.Entry ν) : Prop :=
  ∀ x unit, w.state = .absolute x unit → unit = .px

/-- Everything that is resolved against the parent and has a base is a multiple of a number of
pixels. -/
def BasedInPixels (parent : Option (Style ν)) : Prop :=
  ∀ (v : Style.Entry ν) (sheet : Sheet ν) (property source : Property) (x : ν) (type : ValueType)
    (pixels : ν), openNumber? (v.adopt sheet).state = some (x, type) →
    type.source? property = some source →
    (v.resolveAgainst parent property sheet).result = .ok (.resolved pixels) →
    ∃ size, Base v.config parent sheet source size .px ∧
      pixels = v.config.snap (type.factor x * size)

variable {parent : Option (Style ν)} {sheet : Sheet ν} {source : Property} {w : Style.Entry ν}
  {size : ν} {unit : ValueType}

theorem exists_percentage (config : Config ν) : ∃ (v : Style.Entry ν) (sheet : Sheet ν) (x : ν),
    v.config = config ∧ openNumber? (v.adopt sheet).state = some (x, .percentage) := by
  let added := Sheet.empty.add (.ofPrimitive (.numeric (1.0 : ν) .percentage))
  have hread := isRead_ofDeclaration added.1 none config added.2
  refine ⟨_, _, 1.0, ?_, (congrArg (fun v => openNumber? v.state) hread.adopt_eq).trans ?_⟩
  · rfl
  · rfl

omit [Scalar ν] in
theorem exists_percentage_source (hsource : source = .fontSize ∨ source = .lineHeight) :
    ∃ property, ValueType.source? property .percentage = some source := by
  rcases hsource with rfl | rfl
  · exact ⟨.fontSize, rfl⟩
  · exact ⟨.verticalAlign, rfl⟩

/-- A parent against which everything is resolved in pixels has its numbers in pixels: a percentage
would be taken of any other number, too. -/
theorem inPixels_of_basedInPixels (h : BasedInPixels parent)
    (hsource : source = .fontSize ∨ source = .lineHeight)
    (hw : Style.parentLookup? parent source = some w) (hkind : w.kind = .scalar) : w.InPixels := by
  intro size unit hstate
  obtain ⟨v, sheet, x, -, hopen⟩ := exists_percentage w.config
  obtain ⟨property, hproperty⟩ := exists_percentage_source hsource
  obtain ⟨hnumber, htype⟩ := number_type_eq_ok.mpr ⟨hkind, hstate⟩
  have hbase : Base v.config parent sheet source size unit :=
    .inherited source w size unit hw hnumber htype
  have hresolved := (resolved_iff_base hopen hproperty).mpr ⟨size, unit, hbase, rfl⟩
  obtain ⟨size', hpx, -⟩ := h v sheet property source x .percentage _ hopen hproperty hresolved
  exact (base_unique hbase hpx).2

omit [Scalar ν] in
theorem unit_of_inPixels {config : Config ν} (h : Base config parent sheet source size unit)
    (hw : ∀ w, Style.parentLookup? parent source = some w → w.InPixels) : unit = .px := by
  cases h with
  | configured => rfl
  | inherited _ w _ _ hlookup hnumber htype =>
    exact hw w hlookup size unit (number_type_eq_ok.mp ⟨hnumber, htype⟩).2

theorem fontSize_or_lineHeight {property : Property} {type : ValueType}
    (h : type.source? property = some source) : source = .fontSize ∨ source = .lineHeight := by
  unfold ValueType.source? at h
  split at h
  · exact .inl (Option.some.inj h).symm
  · exact .inl (Option.some.inj h).symm
  · split at h
    · exact .inr (Option.some.inj h).symm
    · exact .inl (Option.some.inj h).symm
    · exact absurd h (by simp)
  · exact absurd h (by simp)

/-- **When relative numbers are multiples of lengths.** What is resolved against a parent is a
multiple of the base, in the unit that the base has. In a tree of styles the base is in pixels, or in
no unit of length at all. So everything that is resolved is a multiple of a length exactly if the
font size and the line height of the parent, where they have a number, have one in pixels. -/
theorem basedInPixels_iff (steps : List (Step ν))
    (hparent : ∀ style, parent = some style → (Session.empty.run steps).1.HasStyle style) :
    (∀ (v : Style.Entry ν) sheet property source x type pixels,
      openNumber? (v.adopt sheet).state = some (x, type) → type.source? property = some source →
      ((v.resolveAgainst parent property sheet).result = .ok (.resolved pixels) ↔
        ∃ size unit, Base v.config parent sheet source size unit ∧
          pixels = v.config.snap (type.factor x * size))) ∧
    (∀ config sheet source size unit, Base config parent sheet source size unit →
      unit = .px ∨ unit.isRelative = false ∧ unit.isAbsoluteLength = false) ∧
    (BasedInPixels parent ↔ ∀ source w, source = .fontSize ∨ source = .lineHeight →
      Style.parentLookup? parent source = some w → w.InPixels) := by
  have hholds : ∀ source w, Style.parentLookup? parent source = some w →
      (Session.empty.run steps).1.Holds w := by
    intro source w hw
    obtain ⟨style, hstyle, hlookup⟩ := Option.bind_eq_some_iff.mp hw
    exact Session.holds_of_hasStyle (hparent style hstyle) (Style.has_of_lookup? hlookup)
  refine ⟨fun v sheet property source x type pixels hopen hsource =>
    resolved_iff_base hopen hsource, fun config sheet source size unit hbase => ?_,
    fun h source w hsource hw size unit hstate => ?_,
    fun h v sheet property source x type pixels hopen hsource hresult => ?_⟩
  · cases hbase with
    | configured => exact .inl rfl
    | inherited _ w _ _ hw hnumber htype =>
      exact Session.canonical_of_run steps (hholds source w hw) size unit
        (number_type_eq_ok.mp ⟨hnumber, htype⟩).2
  · have htyped := Session.typed_of_run steps (hholds source w hw)
    have hkind : w.kind = .scalar := htyped.kind.resolve_left (by simp [hstate])
    exact inPixels_of_basedInPixels h hsource hw hkind size unit hstate
  · obtain ⟨size, unit, hbase, hpixels⟩ := (resolved_iff_base hopen hsource).mp hresult
    obtain rfl := unit_of_inPixels hbase fun w => h source w (fontSize_or_lineHeight hsource)
    exact ⟨size, hbase, hpixels⟩

deriving instance DecidableEq for Computation

/-- A page with a line height of 20 pixels. -/
def lineOfPixels : List (Step Float) :=
  [.root "page" .standard, .derive "page" .lineHeight "20px"]

theorem basedInPixels_iff_lineOfPixels :
    ∃ page, (Session.empty.run lineOfPixels).1.style? "page" = some page ∧
      BasedInPixels (some page) := by
  have hpage : ∃ (page : Style Float) (size height : Style.Entry Float),
      (Session.empty.run lineOfPixels).1.style? "page" = some page ∧
      Style.parentLookup? (some page) .fontSize = some size ∧
      Style.parentLookup? (some page) .lineHeight = some height ∧
      size.state = .absolute 16 .px ∧ height.state = .absolute 20 .px :=
    ⟨_, _, _, by with_unfolding_all rfl, by with_unfolding_all rfl, by with_unfolding_all rfl,
      by with_unfolding_all rfl, by with_unfolding_all rfl⟩
  obtain ⟨page, size, height, hstyle, hsize, hheight, hsixteen, htwenty⟩ := hpage
  have hparent : ∀ style, some page = some style →
      (Session.empty.run lineOfPixels).1.HasStyle style := by
    intro style hsame
    obtain rfl := Option.some.inj hsame
    exact Session.hasStyle_of_style? hstyle .self
  obtain ⟨-, -, hbased⟩ := basedInPixels_iff lineOfPixels hparent
  refine ⟨page, hstyle, hbased.mpr fun source w hsource hw x unit hstate => ?_⟩
  rcases hsource with rfl | rfl
  · obtain rfl := Option.some.inj (hsize.symm.trans hw)
    exact (Computation.absolute.inj (hsixteen.symm.trans hstate)).2.symm
  · obtain rfl := Option.some.inj (hheight.symm.trans hw)
    exact (Computation.absolute.inj (htwenty.symm.trans hstate)).2.symm

/-- A page with a line height of one and a half times the font size, and a box in it. -/
def plainLineHeight : List (Step Rat) :=
  [.root "page" .standard, .derive "page" .lineHeight "1.5", .child "box" "page"]

/-- Twice that line height is taken for three pixels. -/
theorem not_basedInPixels_plainLineHeight :
    let session := (Session.empty.run plainLineHeight).1
    ∃ box w, session.style? "box" = some box ∧
      Style.parentLookup? box.parent .lineHeight = some w ∧ w.state = .absolute 1.5 .number ∧
      (box.derive .verticalAlign "200%" session.sheet).result = .ok (.resolved 3) ∧
      ¬ BasedInPixels box.parent := by
  intro session
  have hbox : (session.style? "box").bind (fun box =>
      (Style.parentLookup? box.parent .lineHeight).map fun w => (w.kind, w.state,
        (box.derive .verticalAlign "200%" session.sheet).result.toOption)) =
      some (.scalar, .absolute 1.5 .number, some (.resolved 3)) := by decide +kernel
  obtain ⟨box, hstyle, hline⟩ := Option.bind_eq_some_iff.mp hbox
  obtain ⟨w, hw, hread⟩ := Option.map_eq_some_iff.mp hline
  obtain ⟨hkind, hread⟩ := Prod.mk.inj hread
  obtain ⟨hstate, hresolved⟩ := Prod.mk.inj hread
  refine ⟨box, w, hstyle, hw, hstate, eq_ok_of_toOption hresolved, fun hbased => ?_⟩
  exact absurd (inPixels_of_basedInPixels hbased (.inr rfl) hw hkind _ _ hstate) (by simp)

end ComputedCss
