import Mathlib.Algebra.Order.Field.Rat
import Mathlib.Tactic.FieldSimp
import Mathlib.Tactic.NormNum
import Mathlib.Tactic.Ring
import ComputedCss.Proofs.ComputedValue.Numeric
import ComputedCss.Proofs.Session.WriteRead

/-!
# Lengths in exact arithmetic

Over the rationals the conversions between absolute lengths are one scale: a unit is some
millimetres, and a number of one unit is read in another by the ratio of the two.

* `Dimension.millimetres`: the scale.
* `Length.toPixels_exact`, `Length.fromPixels_exact`: the conversions keep to it.
* `ComputedValue.IsRead.numberIn_length`: so do the readings, except for a number of pixels that has
  been computed and may have lost its fraction.
* `lengths_exact`: the readings of a declaration with one holder, and what writing them back changes.
-/

namespace ComputedCss

/-- The millimetres of a unit, for an absolute length. -/
def Dimension.millimetres : Dimension → Rat
  | .px => 0.28
  | .mm => 1
  | .cm => 10
  | .inch => 25.4
  | .pt => 25.4 / 72
  | .pc => 25.4 / 6
  | .em | .ex | .deg | .rad | .grad | .ms | .s | .hz | .khz => 0

namespace Length

variable {u w : Dimension}

theorem millimetres_ne_zero (h : u.isAbsoluteLength = true) : u.millimetres ≠ 0 := by
  cases u with
  | px | mm | cm | inch | pt | pc => norm_num [Dimension.millimetres]
  | _ => exact absurd h (by decide)

/-! ## Conversions -/

theorem ofCentimetres_exact (x : Rat) : ofCentimetres x = x * 10 / 0.28 := by
  show x * 10.0 / 0.28 = x * 10 / 0.28
  norm_num

theorem ofInches_exact (x : Rat) : ofInches x = x * 25.4 / 0.28 := by
  rw [ofInches, ofCentimetres_exact]
  show x * 2.54 * 10 / 0.28 = x * 25.4 / 0.28
  ring

theorem ofUnit?_exact (h : u.isAbsoluteLength = true) (n : Rat) :
    ofUnit? n u = some (n * u.millimetres / Dimension.px.millimetres) := by
  cases u with
  | px =>
    rw [mul_div_cancel_right₀ n (millimetres_ne_zero rfl)]
    rfl
  | mm =>
    show some (n / 0.28) = some (n * 1 / 0.28)
    rw [mul_one]
  | cm => exact congrArg some (ofCentimetres_exact n)
  | inch => exact congrArg some (ofInches_exact n)
  | pt =>
    show some (ofInches (n / 72.0)) = some (n * (25.4 / 72) / 0.28)
    rw [ofInches_exact]
    norm_num
    ring
  | pc =>
    show some (ofInches (n * 12.0 / 72.0)) = some (n * (25.4 / 6) / 0.28)
    rw [ofInches_exact]
    norm_num
    ring
  | _ => exact absurd h (by decide)

theorem toPixels_exact (h : u.isAbsoluteLength = true) (n : Rat) :
    toPixels n (.dimension u) = .ok (n * u.millimetres / Dimension.px.millimetres) := by
  rw [toPixels, ofUnit?_exact h]

theorem fromPixels_exact (h : w.isAbsoluteLength = true) (pixels : Rat) :
    fromPixels pixels (.dimension w) =
      .ok (pixels * Dimension.px.millimetres / w.millimetres) := by
  have hw := millimetres_ne_zero h
  have hpx := millimetres_ne_zero (show Dimension.px.isAbsoluteLength = true from rfl)
  rw [fromPixels, toPixels_exact h]
  show Except.ok (pixels / (1.0 * w.millimetres / Dimension.px.millimetres)) = _
  congr 1
  have hone : (1.0 : Rat) = 1 := by norm_num
  rw [hone]
  field_simp

end Length

/-! ## Readings -/

namespace ComputedValue

variable {v : Style.Entry Rat} {sheet : Sheet Rat} {n : Rat} {u w : Dimension}

theorem IsRead.state_length (h : v.IsRead sheet) (hu : u.isAbsoluteLength = true)
    (hsaid : (sheet.get v.declaration).value = .single (.numeric n (.dimension u))) :
    v.state = .absolute
      (v.config.snap (n * u.millimetres / Dimension.px.millimetres)) .px := by
  have hrelative : ¬ (ValueType.dimension u).isRelative = true := by
    cases u with
    | em | ex => exact absurd hu (by decide)
    | _ => decide
  rw [h.state, hsaid]
  simp only [Computation.ofValue, Value.primitive?]
  rw [if_neg hrelative, Length.toPixels_exact hu]

theorem IsRead.number_length (h : v.IsRead sheet) (hu : u.isAbsoluteLength = true)
    (hsaid : (sheet.get v.declaration).value = .single (.numeric n (.dimension u))) :
    v.number sheet =
      .ok (v.config.snap (n * u.millimetres / Dimension.px.millimetres)) := by
  have hkind : v.kind = .scalar := by rw [h.kind, hsaid]; rfl
  exact number_eq_ok.mpr ⟨hkind, .px, h.state_length hu hsaid⟩

theorem IsRead.numberIn_computed (h : v.IsRead sheet) (hu : u.isAbsoluteLength = true)
    (hpx : u ≠ .px)
    (hsaid : (sheet.get v.declaration).value = .single (.numeric n (.dimension u))) :
    v.numberIn .px sheet =
      .ok (v.config.snap (n * u.millimetres / Dimension.px.millimetres)) := by
  have hkind : v.kind = .scalar := by rw [h.kind, hsaid]; rfl
  rw [numberIn_px hkind (h.state_length hu hsaid), primitive_eq_ok.mpr hsaid]
  simp [Except.map, Primitive.pixels?, hpx]

theorem IsRead.numberIn_length (h : v.IsRead sheet) (hu : u.isAbsoluteLength = true)
    (hw : w.isAbsoluteLength = true) (hunits : w ≠ .px ∨ w = u)
    (hsaid : (sheet.get v.declaration).value = .single (.numeric n (.dimension u))) :
    v.numberIn (.dimension w) sheet = .ok (n * u.millimetres / w.millimetres) := by
  by_cases hsame : w = u
  · subst hsame
    rw [h.numberIn hsaid, mul_div_cancel_right₀ n (Length.millimetres_ne_zero hu)]
  · have hkind : v.kind = .scalar := by rw [h.kind, hsaid]; rfl
    have hpx : Dimension.px ≠ w := fun heq => (hunits.resolve_right hsame) heq.symm
    have hlength : (ValueType.px.isAbsoluteLength &&
        (ValueType.dimension w).isAbsoluteLength) = true := hw
    -- The number is converted from the pixels before they lose their fraction.
    have hconverted : Length.fromPixels (n * u.millimetres / Dimension.px.millimetres)
        (.dimension w) = .ok (n * u.millimetres / w.millimetres) := by
      rw [Length.fromPixels_exact hw,
        div_mul_cancel₀ _ (Length.millimetres_ne_zero (show Dimension.px.isAbsoluteLength = true from rfl))]
    have hunsnapped : unsnapped (v.config.snap (n * u.millimetres / Dimension.px.millimetres))
        (some (n, .dimension u)) = .ok (n * u.millimetres / Dimension.px.millimetres) :=
      (if_pos hu).trans (Length.toPixels_exact hu n)
    unfold ComputedValue.numberIn
    rw [requireScalar_eq, if_pos hkind, h.state_length hu hsaid, primitive_eq_ok.mpr hsaid]
    simp only [Bind.bind, Except.bind, Option.filter, beq_iff_eq, ValueType.dimension.injEq,
      Ne.symm hsame, hpx, if_false, hlength, if_true, hunsnapped, hconverted]

theorem number_setNumber (hdeclared : v.declaration < sheet.declarations.length)
    (hw : w.isAbsoluteLength = true)
    (hsaid : (sheet.get v.declaration).value = .single (.numeric n (.dimension u))) (x : Rat) :
    let after := v.setNumber (.dimension w) x sheet
    after.result = .ok () ∧ after.subject.number after.sheet =
      .ok (v.config.snap (x * w.millimetres / Dimension.px.millimetres)) := by
  intro after
  have hafter : after = v.replaceBy (.numeric x (.dimension w)) sheet :=
    setNumber_of_isNumber ⟨n, .dimension u, hsaid, rfl⟩ _ x
  have hwritten : (after.sheet.get v.declaration).value = .single (.numeric x (.dimension w)) := by
    rw [hafter]
    exact congrArg Declaration.value (Sheet.get_write_self hdeclared _)
  have hsubject : after.subject = v.refresh after.sheet := by rw [hafter]; rfl
  refine ⟨by rw [hafter]; rfl, ?_⟩
  rw [hsubject]
  exact (isRead_refresh v after.sheet).number_length hw hwritten

end ComputedValue

theorem ComputedValue.InStep.isRead {v : Style.Entry Rat} {sheet : Sheet Rat} {n : Rat}
    {u : Dimension} (h : v.InStep sheet)
    (hsaid : (sheet.get v.declaration).value = .single (.numeric n (.dimension u))) :
    v.IsRead sheet := by
  refine ⟨h.kind, h.state.resolve_right ?_⟩
  rintro ⟨x, property, axis, -, hpercentage⟩
  rw [hsaid] at hpercentage
  exact absurd hpercentage (by simp)

/-- **Lengths are read without loss.** A declaration with one holder has come to say a number of some
unit of length. In every other unit than the pixel, and in its own, the number is read by the ratio
of the units, whether computed lengths are whole pixels or not. In pixels, a number of another unit
is read as it has been computed. Whatever is read, writing it back does not change the computed
number. -/
theorem lengths_exact {sheet : Sheet Rat} {id : DeclarationId}
    (hid : id < sheet.declarations.length) (context : Option (Style Rat)) (config : Config Rat)
    {turns : List (Turn Rat)} (hturns : ∀ turn ∈ turns, turn.Spares id) {n : Rat}
    {u w : Dimension} (hu : u.isAbsoluteLength = true) (hw : w.isAbsoluteLength = true) :
    let fresh := ComputedValue.ofDeclaration id context config sheet
    let later := (Holder.mk fresh.1 fresh.2).run turns
    let computed := config.snap (n * u.millimetres / Dimension.px.millimetres)
    (later.sheet.get id).value = .single (.numeric n (.dimension u)) →
      later.value.number later.sheet = .ok computed ∧
      ∃ x, later.value.numberIn (.dimension w) later.sheet = .ok x ∧
        (w ≠ .px ∨ w = u → x = n * u.millimetres / w.millimetres) ∧
        (w = .px ∧ u ≠ .px → x = computed) ∧
        let after := later.value.setNumber (.dimension w) x later.sheet
        after.result = .ok () ∧ after.subject.number after.sheet = .ok computed := by
  intro fresh later computed hsays
  have hfresh : (Holder.mk fresh.1 fresh.2).InStep id config :=
    ⟨rfl, rfl, hid, (ComputedValue.isRead_ofDeclaration id context config sheet).inStep⟩
  obtain ⟨hdeclaration, hconfig, hdeclared, hvalue⟩ : later.InStep id config :=
    Holder.of_run (fun _ _ => Holder.inStep_take Exact.floor_floor) hturns hfresh
  have hsaid : (later.sheet.get later.value.declaration).value =
      .single (.numeric n (.dimension u)) := by rw [hdeclaration, hsays]
  have hread := hvalue.isRead hsaid
  have hnumber := hread.number_length hu hsaid
  have hwrite : ∀ x, _ := ComputedValue.number_setNumber (hdeclaration.symm ▸ hdeclared) hw hsaid
  simp only [hconfig] at hnumber hwrite
  refine ⟨hnumber, ?_⟩
  by_cases hunits : w ≠ .px ∨ w = u
  · obtain ⟨hresult, hback⟩ := hwrite (n * u.millimetres / w.millimetres)
    rw [div_mul_cancel₀ _ (Length.millimetres_ne_zero hw)] at hback
    refine ⟨_, hread.numberIn_length hu hw hunits hsaid, fun _ => rfl, ?_, hresult, hback⟩
    rintro ⟨rfl, hpx⟩
    exact absurd (hunits.resolve_left (fun hne => hne rfl)).symm hpx
  · obtain ⟨hpixels, hother⟩ := not_or.mp hunits
    obtain rfl : w = .px := not_not.mp hpixels
    obtain ⟨hresult, hback⟩ := hwrite computed
    rw [mul_div_cancel_right₀ _ (Length.millimetres_ne_zero hw),
      config.snap_snap Exact.floor_floor] at hback
    have hcomputed := hread.numberIn_computed hu (Ne.symm hother) hsaid
    rw [hconfig] at hcomputed
    exact ⟨computed, hcomputed, fun h => absurd h hunits, fun _ => rfl, hresult, hback⟩

/-- A multiple of a font size is written over with points, before the style pass. -/
def pointsTurns : List (Turn Rat) :=
  [.own (.setNumber (.dimension .pt) 12), .others fun sheet => (sheet.add .absent).2,
    .own (.resolve .height)]

/-- Twelve points are a sixth of an inch, and fifteen pixels that are written back as they are. -/
theorem lengths_exact_points :
    let sheet : Sheet Rat := (Sheet.empty.add (.ofPrimitive (.numeric 1 (.dimension .em)))).2
    let fresh := ComputedValue.ofDeclaration 0 none .standard sheet
    let later := (Holder.mk fresh.1 fresh.2).run pointsTurns
    later.value.numberIn (.dimension .inch) later.sheet = .ok (1 / 6) ∧
    later.value.numberIn .px later.sheet = .ok 15 ∧
    (later.value.setNumber .px 15 later.sheet).subject.number
      (later.value.setNumber .px 15 later.sheet).sheet = .ok 15 := by
  intro sheet fresh later
  have hturns : ∀ turn ∈ pointsTurns, turn.Spares 0 := by
    intro turn hmem
    simp only [pointsTurns, List.mem_cons, List.not_mem_nil, or_false] at hmem
    rcases hmem with rfl | rfl | rfl
    case inr.inl =>
      intro sheet hsheet
      exact ⟨Nat.lt_of_lt_of_le hsheet (by simp [Sheet.add]), Sheet.get_add_of_lt hsheet _⟩
    all_goals trivial
  have hsays : (later.sheet.get 0).value = .single (.numeric 12 (.dimension .pt)) := by
    with_unfolding_all rfl
  have hcomputed : (Config.standard : Config Rat).snap
      (12 * Dimension.pt.millimetres / Dimension.px.millimetres) = 15 := by
    decide +kernel
  have hsixth : 12 * Dimension.pt.millimetres / Dimension.inch.millimetres = 1 / 6 := by
    decide +kernel
  have hid : 0 < sheet.declarations.length := by decide
  obtain ⟨-, x, hinches, hx, -⟩ := lengths_exact hid none .standard hturns
    (show Dimension.pt.isAbsoluteLength = true from rfl)
    (show Dimension.inch.isAbsoluteLength = true from rfl) hsays
  obtain ⟨-, y, hpixels, -, hy, -, hback⟩ := lengths_exact hid none .standard hturns
    (show Dimension.pt.isAbsoluteLength = true from rfl)
    (show Dimension.px.isAbsoluteLength = true from rfl) hsays
  obtain rfl : x = 1 / 6 := (hx (.inl (by decide))).trans hsixth
  obtain rfl : y = 15 := (hy ⟨rfl, by decide⟩).trans hcomputed
  exact ⟨hinches, hpixels, hback.trans (congrArg Except.ok hcomputed)⟩

end ComputedCss
