import ComputedCss.Proofs.Color.Reference
import ComputedCss.Proofs.Number.Remainder

/-!
# The sector of a rounded hue

A turn has six sectors, and over the rationals every hue lies in one of them. Over doubles a
negative remainder is brought into the turn by a sum that is rounded. A remainder just below zero
becomes a whole turn, which is past the last sector.

* `IsJustBelow`: the remainders that are lost.
* `exactValue_turn`: the reduced hue is at most a whole turn, and equal to it for those remainders.
* `wholePart_div`: a hue below a whole turn is in a sector, also when the quotient is rounded.
* `sector_le_iff`: which hues are in a sector, and which of the purest colours are black.
-/

namespace ComputedCss.Hsl

open Binary64

/-! ## The reduced hue -/

/-- A remainder that is less than zero, by no more than half of the distance between the doubles
below a whole turn. -/
def IsJustBelow (r : Rat) : Prop := -(1 / 2 ^ 45) ≤ r ∧ r < 0

theorem exactValue_whole : IsFinite 360.0 ∧ exactValue 360.0 = 360 := by
  have hparts : ofFloat 360.0 = .finite false (360 * 2 ^ 44) (-44) := by decide +kernel
  obtain ⟨hfinite, hvalue⟩ := exactValue_of_parts hparts
  exact ⟨hfinite, hvalue.trans (by norm_num)⟩

theorem exactValue_sixth : IsFinite 60.0 ∧ exactValue 60.0 = 60 := by
  have hparts : ofFloat 60.0 = .finite false (60 * 2 ^ 47) (-47) := by decide +kernel
  obtain ⟨hfinite, hvalue⟩ := exactValue_of_parts hparts
  exact ⟨hfinite, hvalue.trans (by norm_num)⟩

theorem lt_range {x : Rat} (hx : x ≤ 360) : x < 2 ^ (1000 : Int) :=
  calc x ≤ 360 := hx
    _ < 2 ^ (9 : Int) := by norm_num
    _ < 2 ^ (1000 : Int) := zpow_lt_zpow_right₀ one_lt_two (by norm_num)

theorem isCanonical_whole : IsCanonical (360 * 2 ^ 44) (-44) :=
  ⟨by norm_num, by norm_num, by norm_num, .inl (by norm_num)⟩

theorem isCanonical_six : IsCanonical (6 * 2 ^ 50) (-50) :=
  ⟨by norm_num, by norm_num, by norm_num, .inl (by norm_num)⟩

theorem isCanonical_last : IsCanonical (6 * 2 ^ 50 - 1) (-50) :=
  ⟨by norm_num, by norm_num, by norm_num, .inl (by norm_num)⟩

/-- Close to a whole turn the distance between doubles is `2 ^ (-44)`, and halfway the whole turn is
the even one. -/
theorem rounded_whole {x : Rat} {n : Nat} {e : Int} (h : Rounds x n e) (hx : x < 360) :
    (n : Rat) * 2 ^ e = 360 ↔ 360 - 1 / 2 ^ 45 ≤ x := by
  have hexponent : e ≤ -44 := h.exponent_le (k := 9) (by norm_num) (hx.trans (by norm_num))
  constructor
  · intro hwhole
    have herror := (abs_le.mp h.error_le).2
    have hpower : (2 : Rat) ^ e ≤ 2 ^ (-44 : Int) := zpow_le_zpow_right₀ one_le_two hexponent
    rw [hwhole] at herror
    norm_num at hpower ⊢
    linarith
  · intro hclose
    have hleast : e = -44 := by
      have hlarge : (2 : Rat) ^ (8 : Int) < 2 ^ (e + 53) :=
        lt_of_le_of_lt (by norm_num at hclose ⊢; linarith) h.high
      have hlt := (zpow_lt_zpow_iff_right₀ one_lt_two).mp hlarge
      omega
    subst hleast
    have hscaled : x / 2 ^ (-44 : Int) = 2 ^ 44 * x := by
      norm_num
      ring
    have hnearest := h.nearest
    rw [hscaled] at hnearest
    have heq : n = 360 * 2 ^ 44 :=
      hnearest.eq_of_even (by norm_num) (by push_cast; linarith) (by push_cast; linarith)
    rw [heq]
    norm_num

/-- **The reduced hue is at most a whole turn**, and equal to it exactly for a remainder that is
just below zero. -/
theorem exactValue_turn {hue : Float} (h : IsFinite hue) :
    IsFinite (turn hue) ∧ 0 ≤ exactValue (turn hue) ∧ exactValue (turn hue) ≤ 360 ∧
      (exactValue (turn hue) = 360 ↔ IsJustBelow (Scalar.rem (exactValue hue) 360)) := by
  obtain ⟨hwhole, hvalue⟩ := exactValue_whole
  have hm : (0 : Rat) < 360 := by norm_num
  obtain ⟨hfinite, hrem⟩ := exactValue_remainder h hwhole (by rw [hvalue]; exact hm.ne')
  rw [hvalue] at hrem
  rw [← hrem]
  have hbounds : -360 < exactValue (remainder hue 360.0) ∧
      exactValue (remainder hue 360.0) < 360 := by
    rcases le_or_gt 0 (exactValue hue) with hhue | hhue
    · obtain ⟨hlow, hhigh⟩ := modulo_bounds (exactValue hue) hm
      rw [hrem, rem_of_nonneg hm hhue]
      constructor <;> linarith
    · obtain ⟨hlow, hhigh⟩ := modulo_bounds (-exactValue hue) hm
      rw [hrem, rem_of_neg hm hhue]
      constructor <;> linarith
  have hturn : turn hue =
      if Scalar.lt (remainder hue 360.0) 0.0 = true then remainder hue 360.0 + 360.0
      else remainder hue 360.0 := rfl
  generalize remainder hue 360.0 = r at *
  rw [hturn]
  by_cases hneg : exactValue r < 0
  · -- A negative remainder is moved up by a turn, and the sum is rounded.
    rw [if_pos ((lt_zero_iff hfinite).mpr hneg)]
    obtain ⟨n, e, hrounds, hsum, hexact⟩ := add_rounds hfinite hwhole (by linarith)
      (lt_range (by rw [hvalue]; linarith))
    rw [hvalue] at hrounds
    have hle := hrounds.le_of_le isCanonical_whole (by norm_num; linarith)
    refine ⟨hsum, ?_, ?_, ?_⟩
    · rw [hexact]
      exact scaled_nonneg n e
    · rw [hexact]
      norm_num at hle
      exact hle
    · rw [hexact, rounded_whole hrounds (by linarith), IsJustBelow]
      constructor
      · intro hclose
        exact ⟨by linarith, hneg⟩
      · intro hclose
        linarith [hclose.1]
  · rw [if_neg (mt (lt_zero_iff hfinite).mp hneg)]
    refine ⟨hfinite, not_lt.mp hneg, hbounds.2.le, ?_⟩
    exact iff_of_false hbounds.2.ne fun hclose => hneg hclose.2

/-! ## The sector -/

/-- **A hue below a whole turn is in a sector.** The double before a whole turn is so far below it
that the quotient is not rounded to the end of the last sector. -/
theorem wholePart_div {t : Float} (h : IsFinite t) (hlow : 0 ≤ exactValue t)
    (hhigh : exactValue t ≤ 360) :
    Scalar.wholePart (t / 60.0) = 6 ∧ exactValue t = 360 ∨
      Scalar.wholePart (t / 60.0) ≤ 5 ∧ exactValue t < 360 := by
  obtain ⟨hsixth, hvalue⟩ := exactValue_sixth
  obtain ⟨n, e, hrounds, hfinite, hexact⟩ := div_rounds h hsixth hlow (by rw [hvalue]; norm_num)
    (lt_range (by rw [hvalue]; linarith))
  rw [hvalue] at hrounds
  have hfloor : Scalar.wholePart (t / 60.0) = ⌊exactValue (t / 60.0)⌋₊ := natPart_eq hfinite
  rw [hfloor, hexact]
  rcases hhigh.eq_or_lt with hwhole | hless
  · -- Six is a double, so that the quotient is not rounded.
    rw [hwhole] at hrounds
    have hle := hrounds.le_of_le isCanonical_six (by norm_num)
    have hge := hrounds.ge_of_ge isCanonical_six (by norm_num)
    have hsix : (n : Rat) * 2 ^ e = (6 : Nat) := by
      norm_num at hle hge ⊢
      exact le_antisymm hle hge
    exact .inl ⟨by rw [hsix, Nat.floor_natCast], hwhole⟩
  · obtain ⟨m, i, hcanonical, hparts⟩ := h.exists_canonical hlow
    have hbefore := hcanonical.le_of_lt (show 2 ^ 52 ≤ 360 * 2 ^ 44 - 1 by norm_num)
      (i := -44) (by rw [← hparts]; norm_num; exact hless)
    rw [← hparts] at hbefore
    have hle := hrounds.le_of_le isCanonical_last (by norm_num at hbefore ⊢; linarith)
    have hsix : (n : Rat) * 2 ^ e < (6 : Nat) := by
      norm_num at hle ⊢
      linarith
    exact .inr ⟨Nat.lt_succ_iff.mp ((Nat.floor_lt (scaled_nonneg n e)).mpr hsix), hless⟩

/-! ## Black -/

section Arms

variable {ν : Type} [Scalar ν] {sector : Nat}

theorem arm_largest (h : sector ≤ 5) (chroma part : ν) :
    (arm sector chroma part).1 = chroma ∨ (arm sector chroma part).2.1 = chroma ∨
      (arm sector chroma part).2.2 = chroma := by
  interval_cases sector
  case «0» => exact .inl rfl
  case «1» => exact .inr (.inl rfl)
  case «2» => exact .inr (.inl rfl)
  case «3» => exact .inr (.inr rfl)
  case «4» => exact .inr (.inr rfl)
  case «5» => exact .inl rfl

theorem arm_past (h : 5 < sector) (chroma part : ν) : arm sector chroma part = (0.0, 0.0, 0.0) := by
  obtain ⟨k, rfl⟩ : ∃ k, sector = k + 6 := ⟨sector - 6, by omega⟩
  rfl

end Arms

theorem toBytes_pure (hue : Float) :
    toBytes hue (100.0 / 100.0) (50.0 / 100.0) = (0, 0, 0) ↔
      5 < Scalar.wholePart (turn hue / 60.0) := by
  have hbytes : ∃ chroma least part : Float,
      Scalar.toByte ((chroma + least) * 255.0) = 255 ∧ Scalar.toByte ((0.0 + least) * 255.0) = 0 ∧
      toBytes hue (100.0 / 100.0) (50.0 / 100.0) =
        let shares := arm (Scalar.wholePart (turn hue / 60.0)) chroma part
        (Scalar.toByte ((shares.1 + least) * 255.0), Scalar.toByte ((shares.2.1 + least) * 255.0),
          Scalar.toByte ((shares.2.2 + least) * 255.0)) := by
    refine ⟨_, _, _, ?_, ?_, rfl⟩ <;> decide +kernel
  obtain ⟨chroma, least, part, hfull, hnone, heq⟩ := hbytes
  rw [heq]
  constructor
  · intro hblack
    by_contra hle
    simp only [Prod.mk.injEq] at hblack
    rcases arm_largest (not_lt.mp hle) chroma part with h | h | h <;> rw [h] at hblack
    · exact absurd (hfull.symm.trans hblack.1) (by decide)
    · exact absurd (hfull.symm.trans hblack.2.1) (by decide)
    · exact absurd (hfull.symm.trans hblack.2.2) (by decide)
  · intro hpast
    dsimp only
    rw [arm_past hpast, hnone]

/-- **Which hues are in a sector.** Every finite hue is in one of the six sectors, unless its
remainder is just below zero. Then it is past the last sector, and the purest colour of the hue is
black. -/
theorem sector_le_iff (hue : Channel Float) (alpha : UInt8)
    (h : hue.toDegrees.isFinite = true) :
    let r := Scalar.rem (exactValue hue.toDegrees) 360
    let sector := Scalar.wholePart (turn hue.toDegrees / 60.0)
    sector ≤ 6 ∧ (sector ≤ 5 ↔ ¬IsJustBelow r) ∧
      (Color.ofHsl hue (.percentage 100.0) (.percentage 50.0) alpha = ⟨0, 0, 0, alpha⟩ ↔
        IsJustBelow r) := by
  intro r sector
  obtain ⟨hfinite, hlow, hhigh, hwhole⟩ := exactValue_turn (isFinite_iff.mp h)
  have hblack : Color.ofHsl hue (.percentage 100.0) (.percentage 50.0) alpha =
      ⟨0, 0, 0, alpha⟩ ↔ 5 < sector := by
    rw [← toBytes_pure, Color.ofHsl]
    simp [Channel.value, Prod.ext_iff]
  rw [hblack, ← hwhole]
  rcases wholePart_div hfinite hlow hhigh with ⟨hsector, hturn⟩ | ⟨hsector, hturn⟩
  · have hsix : sector = 6 := hsector
    exact ⟨hsix.le, iff_of_false (by omega) (not_not.mpr hturn), iff_of_true (by omega) hturn⟩
  · have hfive : sector ≤ 5 := hsector
    exact ⟨by omega, iff_of_true hfive hturn.ne, iff_of_false (by omega) hturn.ne⟩

theorem sector_le_iff_twoThirds :
    (Channel.number (-120.0 : Float)).toDegrees.isFinite = true ∧
      Scalar.wholePart (turn (-120.0 : Float) / 60.0) ≤ 5 ∧
      Color.ofHsl (.number (-120.0 : Float)) (.percentage 100.0) (.percentage 50.0) 255 ≠
        ⟨0, 0, 0, 255⟩ := by
  have hfinite : (Channel.number (-120.0 : Float)).toDegrees.isFinite = true := by decide +kernel
  have hnot : ¬IsJustBelow (Scalar.rem (exactValue (-120.0)) 360) := fun hclose =>
    absurd hclose.1 (by decide +kernel)
  obtain ⟨-, hsector, hblack⟩ :=
    sector_le_iff (.number (-120.0)) 255 hfinite
  exact ⟨hfinite, hsector.mpr hnot, mt hblack.mp hnot⟩

/-- A hue that is just below zero is in no sector, and its red is black. -/
theorem not_sector_le_justBelow :
    (-1e-20 : Float).isFinite = true ∧ ¬Scalar.wholePart (turn (-1e-20 : Float) / 60.0) ≤ 5 ∧
      Color.ofFunction? Float "hsl" "-1e-20 100% 50%".toList = some ⟨0, 0, 0, 255⟩ := by
  decide +kernel

end ComputedCss.Hsl
