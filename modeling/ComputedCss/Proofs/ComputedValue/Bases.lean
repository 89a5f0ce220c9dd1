import ComputedCss.Proofs.ComputedValue.Operations

/-!
# Bases of relative numbers

A multiple of a font size, a percentage for `font-size` and one for `vertical-align` are taken of a
number of the parent style. That number is used as it is: the computation does not look at its unit.

* `ValueType.source?`: the property of the parent that a relative number refers to.
* `Base`: the number with its unit.
* `resolved_iff_base`: what is resolved is a multiple of the base.
-/

namespace ComputedCss

/-- The property of the parent that a relative number of a property is a multiple of. -/
def ValueType.source? (property : Property) : ValueType → Option Property
  | .dimension .em | .dimension .ex => some .fontSize
  | .percentage =>
    match property with
    | .verticalAlign => some .lineHeight
    | .fontSize => some .fontSize
    | _ => none
  | _ => none

variable {ν : Type} [Scalar ν]

/-- How many times its base a relative number is. -/
def ValueType.factor (x : ν) : ValueType → ν
  | .percentage => x / 100.0
  | _ => x

/-- A number that relative numbers refer to, with its unit. It is that of the parent, or for want of
a font size the configured one. -/
inductive Base (config : Config ν) (parent : Option (Style ν)) (sheet : Sheet ν) :
    Property → ν → ValueType → Prop
  | configured : Style.parentLookup? parent .fontSize = none →
    Base config parent sheet .fontSize config.defaultFontSize .px
  | inherited (source w size unit) : Style.parentLookup? parent source = some w →
    w.number sheet = .ok size → w.type sheet = .ok unit → Base config parent sheet source size unit

namespace ComputedValue

variable {v w : Style.Entry ν} {sheet : Sheet ν} {config : Config ν} {parent : Option (Style ν)}
  {property source : Property} {x size : ν} {type unit : ValueType}

/-! ## Numbers and their units -/

omit [Scalar ν] in
theorem type_of_absolute (hkind : v.kind = .scalar) (hstate : v.state = .absolute x type)
    (sheet : Sheet ν) : v.type sheet = .ok type := by
  unfold ComputedValue.type
  rw [requireScalar_eq, if_pos hkind, hstate]
  rfl

omit [Scalar ν] in
theorem number_type_eq_ok : v.number sheet = .ok size ∧ v.type sheet = .ok unit ↔
    v.kind = .scalar ∧ v.state = .absolute size unit := by
  constructor
  · rintro ⟨hnumber, htype⟩
    obtain ⟨hkind, type, hstate⟩ := number_eq_ok.mp hnumber
    obtain rfl : type = unit := Except.ok.inj ((type_of_absolute hkind hstate sheet).symm.trans htype)
    exact ⟨hkind, hstate⟩
  · rintro ⟨hkind, hstate⟩
    exact ⟨number_eq_ok.mpr ⟨hkind, unit, hstate⟩, type_of_absolute hkind hstate sheet⟩

omit [Scalar ν] in
theorem number_eq_ok_iff_base (hw : Style.parentLookup? parent source = some w) (config : Config ν) :
    w.number sheet = .ok size ↔ ∃ unit, Base config parent sheet source size unit := by
  constructor
  · intro hnumber
    obtain ⟨hkind, unit, hstate⟩ := number_eq_ok.mp hnumber
    exact ⟨unit, .inherited _ w _ _ hw hnumber (type_of_absolute hkind hstate sheet)⟩
  · rintro ⟨unit, hbase⟩
    cases hbase with
    | configured hnone => exact absurd (hw.symm.trans hnone) (by simp)
    | inherited _ w' _ _ hw' hnumber =>
      obtain rfl := Option.some.inj (hw.symm.trans hw')
      exact hnumber

theorem fontSize_eq_ok_iff : Reading.result (fontSize config parent sheet) = .ok size ↔
    ∃ unit, Base config parent sheet .fontSize size unit := by
  unfold fontSize
  cases hlookup : Style.parentLookup? parent .fontSize with
  | some w =>
    dsimp only
    rw [Reading.result_ofExcept, number_eq_ok_iff_base hlookup config]
  | none =>
    dsimp only
    rw [Reading.result_bind]
    constructor
    · intro h
      obtain rfl : config.defaultFontSize = size := by simpa [Reading.tell, Except.bind] using h
      exact ⟨.px, .configured hlookup⟩
    · rintro ⟨unit, hbase⟩
      cases hbase with
      | configured => rfl
      | inherited _ w _ _ hw => exact absurd (hlookup.symm.trans hw) (by simp)

omit [Scalar ν] in
theorem lineHeight_eq_ok_iff (config : Config ν) :
    Reading.result (lineHeight parent sheet) = .ok size ↔
      ∃ unit, Base config parent sheet .lineHeight size unit := by
  unfold lineHeight
  cases hlookup : Style.parentLookup? parent .lineHeight with
  | some w =>
    dsimp only
    rw [Reading.result_ofExcept, number_eq_ok_iff_base hlookup config]
  | none =>
    constructor
    · intro h
      exact absurd h (by simp)
    · rintro ⟨unit, hbase⟩
      cases hbase with
      | inherited _ w _ _ hw => exact absurd (hlookup.symm.trans hw) (by simp)

omit [Scalar ν] in
theorem base_unique {size' : ν} {unit' : ValueType} (h : Base config parent sheet source size unit)
    (h' : Base config parent sheet source size' unit') : size = size' ∧ unit = unit' := by
  cases h with
  | configured hnone =>
    cases h' with
    | configured => exact ⟨rfl, rfl⟩
    | inherited _ w _ _ hw => exact absurd (hnone.symm.trans hw) (by simp)
  | inherited _ w _ _ hw hnumber htype =>
    cases h' with
    | configured hnone => exact absurd (hnone.symm.trans hw) (by simp)
    | inherited _ w' _ _ hw' hnumber' htype' =>
      obtain rfl := Option.some.inj (hw.symm.trans hw')
      exact ⟨Except.ok.inj (hnumber.symm.trans hnumber'), Except.ok.inj (htype.symm.trans htype')⟩

/-! ## What is resolved -/

omit [Scalar ν] in
theorem multiple_eq_ok_iff {r : Reading ν ν} {f : ν → ν} {b : Basis ν}
    (hr : ∀ size, r.result = .ok size ↔ ∃ unit, Base config parent sheet source size unit) :
    Reading.result (r >>= fun size => pure (Basis.length (f size))) = .ok b ↔
      ∃ size unit, Base config parent sheet source size unit ∧ b = .length (f size) := by
  rw [Reading.result_bind_eq_ok]
  constructor
  · rintro ⟨size, hsize, hb⟩
    obtain ⟨unit, hbase⟩ := (hr size).mp hsize
    exact ⟨size, unit, hbase, (Except.ok.inj hb).symm⟩
  · rintro ⟨size, unit, hbase, rfl⟩
    exact ⟨size, (hr size).mpr ⟨unit, hbase⟩, rfl⟩

theorem basis_eq_ok_iff (hsource : type.source? property = some source) {b : Basis ν} :
    Reading.result (basis config parent property sheet x type) = .ok b ↔
      ∃ size unit, Base config parent sheet source size unit ∧
        b = .length (type.factor x * size) := by
  cases type with
  | dimension d =>
    cases d with
    | em | ex =>
      obtain rfl := Option.some.inj hsource
      exact multiple_eq_ok_iff fun size => fontSize_eq_ok_iff
    | _ => exact absurd hsource (by simp [ValueType.source?])
  | percentage =>
    cases property with
    | verticalAlign =>
      obtain rfl := Option.some.inj hsource
      exact multiple_eq_ok_iff fun size => lineHeight_eq_ok_iff config
    | fontSize =>
      obtain rfl := Option.some.inj hsource
      exact multiple_eq_ok_iff fun size => fontSize_eq_ok_iff
    | _ => exact absurd hsource (by simp [ValueType.source?])
  | _ => exact absurd hsource (by simp [ValueType.source?])

/-- **What is resolved is a multiple of the base**, in whatever unit the base is. -/
theorem resolved_iff_base (hopen : openNumber? (v.adopt sheet).state = some (x, type))
    (hsource : type.source? property = some source) {pixels : ν} :
    (v.resolveAgainst parent property sheet).result = .ok (.resolved pixels) ↔
      ∃ size unit, Base v.config parent sheet source size unit ∧
        pixels = v.config.snap (type.factor x * size) := by
  have hbasis : ∀ b, Reading.result (basis v.config parent property sheet x type) = .ok b ↔
      ∃ size unit, Base v.config parent sheet source size unit ∧
        b = .length (type.factor x * size) := fun b => basis_eq_ok_iff hsource
  unfold resolveAgainst
  dsimp only
  rw [hopen, config_adopt]
  dsimp only
  cases hresult : (basis v.config parent property sheet x type).run.value with
  | error error =>
    constructor
    · intro h
      exact absurd h (by simp)
    · rintro ⟨size, unit, hbase, -⟩
      have hok := (hbasis _).mpr ⟨size, unit, hbase, rfl⟩
      exact absurd (hok.symm.trans hresult) (by simp)
  | ok b =>
    obtain ⟨size, unit, hbase, rfl⟩ := (hbasis b).mp hresult
    show Except.ok (Resolution.resolved ((v.adopt sheet).config.snap (type.factor x * size))) =
      .ok (.resolved pixels) ↔ _
    rw [config_adopt]
    constructor
    · intro h
      exact ⟨size, unit, hbase, (Resolution.resolved.inj (Except.ok.inj h)).symm⟩
    · rintro ⟨size', unit', hbase', rfl⟩
      obtain ⟨rfl, -⟩ := base_unique hbase hbase'
      rfl

end ComputedValue

end ComputedCss
