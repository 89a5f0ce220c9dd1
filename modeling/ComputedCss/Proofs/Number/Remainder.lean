import Mathlib.Tactic.LinearCombination
import ComputedCss.Number.Exact
import ComputedCss.Proofs.Number.ExactValue

/-!
# The remainder of doubles

The remainder is computed on mantissas that are brought to one exponent. It has no more bits than
one of the two, so that it is a double, and nothing is rounded.

* `exactValue_pack`: a short mantissa and an exponent in range are put together without a loss.
* `exactValue_remainder`: the remainder of two doubles is that of the numbers.
-/

namespace ComputedCss

namespace Binary64

/-! ## Putting a double together -/

theorem ofBits_short (negative : Bool) {m : Nat} (hm : m < 2 ^ 52) :
    ofBits ((if negative then 2 ^ 63 else 0) + m) = .finite negative m (-1074) := by
  have hbiased : ((if negative then 2 ^ 63 else 0) + m) / 2 ^ 52 % 2 ^ 11 = 0 := by
    cases negative <;> simp <;> omega
  have hfraction : ((if negative then 2 ^ 63 else 0) + m) % 2 ^ 52 = m := by
    cases negative <;> simp <;> omega
  have hnegative : decide (2 ^ 63 ≤ (if negative then 2 ^ 63 else 0) + m) = negative := by
    cases negative with
    | false => exact decide_eq_false (by simp; omega)
    | true => exact decide_eq_true (by simp)
  unfold ofBits
  simp only [Nat.pow_eq]
  rw [hbiased, hfraction, hnegative, if_neg (by decide), if_pos rfl]

theorem toNat_bits (negative : Bool) {magnitude : Nat} (h : magnitude < 2 ^ 63) :
    (if negative then Nat.pow 2 63 + magnitude else magnitude).toUInt64.toNat =
      (if negative then 2 ^ 63 else 0) + magnitude := by
  rw [Nat.toUInt64_eq, UInt64.toNat_ofNat', Nat.mod_eq_of_lt]
  · cases negative <;> simp
  · cases negative <;> simp <;> omega

theorem exactValue_ofBits {negative : Bool} {magnitude m : Nat} {e : Int}
    (hmagnitude : magnitude < 2 ^ 63)
    (h : ofBits ((if negative then 2 ^ 63 else 0) + magnitude) = .finite negative m e) :
    let bits := if negative then Nat.pow 2 63 + magnitude else magnitude
    IsFinite (Float.ofBits bits.toUInt64) ∧
      exactValue (Float.ofBits bits.toUInt64) = (if negative then -1 else 1) * (m * 2 ^ e) := by
  rw [← toNat_bits negative hmagnitude] at h
  exact exactValue_of_parts (ofFloat_ofBits h)

theorem exactValue_pack (negative : Bool) {m : Nat} {e : Int} (hm : m < 2 ^ 53) (hlow : -1074 ≤ e)
    (hhigh : e ≤ 971) : IsFinite (pack negative m e) ∧
      exactValue (pack negative m e) = (if negative then -1 else 1) * (m * 2 ^ e) := by
  obtain ⟨k, hk⟩ : ∃ k, min (52 - m.log2) (e + 1074).toNat = k := ⟨_, rfl⟩
  have hvalue := (shifted_value m k e).symm
  unfold pack
  simp only [Nat.pow_eq]
  rw [hk]
  by_cases hshort : m * 2 ^ k < 2 ^ 52
  · -- The shift ends at the least exponent, unless there is nothing to be shifted.
    rw [if_pos hshort]
    obtain ⟨hfinite, hexact⟩ := exactValue_ofBits (by omega) (ofBits_short negative hshort)
    refine ⟨hfinite, hexact.trans ?_⟩
    rcases Nat.eq_zero_or_pos m with rfl | hpos
    · simp
    · have hlog : (m * 2 ^ k).log2 < 52 := by
        refine (Nat.log2_lt ?_).mpr hshort
        exact (Nat.mul_pos hpos (Nat.two_pow_pos k)).ne'
      rw [log2_mul_two_pow hpos] at hlog
      have hleast : e - k = -1074 := by omega
      rw [hvalue, hleast]
  · have hpos : 0 < m := by
      rcases Nat.eq_zero_or_pos m with rfl | hpos
      · simp at hshort
      · exact hpos
    have hlog : m.log2 < 53 := (Nat.log2_lt hpos.ne').mpr hm
    have hfull : m * 2 ^ k < 2 ^ 53 := by
      calc m * 2 ^ k < 2 ^ (m.log2 + 1) * 2 ^ k :=
            Nat.mul_lt_mul_of_pos_right Nat.lt_log2_self (Nat.two_pow_pos k)
        _ = 2 ^ (m.log2 + 1 + k) := (Nat.pow_add _ _ _).symm
        _ ≤ 2 ^ 53 := Nat.pow_le_pow_right (by decide) (by omega)
    -- The greatest bit of the mantissa counts as one more in the exponent.
    obtain ⟨fraction, hfraction⟩ : ∃ fraction, m * 2 ^ k = 2 ^ 52 + fraction :=
      ⟨m * 2 ^ k - 2 ^ 52, by omega⟩
    have hmagnitude : (e - k + 1074).toNat * 2 ^ 52 + m * 2 ^ k =
        ((e - k + 1074).toNat + 1) * 2 ^ 52 + fraction := by
      rw [hfraction]
      omega
    have hexponent : (((e - k + 1074).toNat + 1 : Nat) : Int) - 1075 = e - k := by omega
    have hbiased : (e - k + 1074).toNat + 1 < 2047 := by omega
    have hparts := ofBits_normal negative (Nat.succ_pos _) hbiased (show fraction < 2 ^ 52 by omega)
    rw [hexponent, ← hfraction] at hparts
    rw [if_neg hshort, hmagnitude, hvalue]
    exact exactValue_ofBits (by omega) hparts

/-! ## The remainder -/

/-- A number with a sign. -/
abbrev signed (negative : Bool) (x : Rat) : Rat := (if negative then -1 else 1) * x

theorem truncate_signed (negative : Bool) {x : Rat} (hx : 0 ≤ x) :
    ((Exact.truncate (signed negative x) : Int) : Rat) = signed negative (⌊x⌋ : Int) := by
  rcases hx.eq_or_lt with rfl | hpos
  · have hzero : signed negative 0 = 0 := mul_zero _
    have htruncate : Exact.truncate 0 = 0 := by decide +kernel
    rw [hzero, htruncate, Int.floor_zero, Int.cast_zero, hzero]
  · cases negative with
    | true =>
      have hneg : signed true x < 0 := by
        simp only [signed, if_true]
        linarith
      rw [Exact.truncate, if_pos hneg, Rat.ceil_eq_neg_floor_neg]
      simp only [signed, if_true, neg_one_mul, neg_neg]
      push_cast
      rfl
    | false =>
      have hnonneg : ¬ signed false x < 0 := by
        simp only [signed, Bool.false_eq_true, if_false, one_mul]
        exact not_lt.mpr hx
      rw [Exact.truncate, if_neg hnonneg]
      simp only [signed, Bool.false_eq_true, if_false, one_mul]
      rfl

theorem rem_signed (negative other : Bool) {a b : Rat} (ha : 0 ≤ a) (hb : 0 < b) :
    Scalar.rem (signed negative a) (signed other b) =
      signed negative (a - b * (⌊a / b⌋ : Int)) := by
  have hquotient : signed negative a / signed other b = signed (negative ^^ other) (a / b) := by
    cases negative <;> cases other <;> simp [signed, neg_div, div_neg]
  show signed negative a - signed other b * Exact.truncate (signed negative a / signed other b) = _
  rw [hquotient, truncate_signed _ (div_nonneg ha hb.le)]
  cases negative <;> cases other <;> simp [signed] <;> ring

theorem mod_value (a b : Nat) (e : Int) :
    ((a % b : Nat) : Rat) * 2 ^ e =
      a * 2 ^ e - b * 2 ^ e * (⌊(a : Rat) * 2 ^ e / (b * 2 ^ e)⌋ : Int) := by
  have hpos := two_zpow_pos e
  have hquotient : (a : Rat) * 2 ^ e / (b * 2 ^ e) = a / b := mul_div_mul_right _ _ hpos.ne'
  have hsplit : (a : Rat) = b * (a / b : Nat) + (a % b : Nat) := by
    exact_mod_cast (Nat.div_add_mod a b).symm
  have hfloor : ⌊(a : Rat) / b⌋ = ((a / b : Nat) : Int) := Rat.floor_natCast_div_natCast a b
  rw [hquotient, hfloor, Int.cast_natCast]
  linear_combination -(2 : Rat) ^ e * hsplit

/-- **The remainder of two doubles is the remainder of the numbers.** -/
theorem exactValue_remainder {x y : Float} (hx : IsFinite x) (hy : IsFinite y)
    (hne : exactValue y ≠ 0) : IsFinite (remainder x y) ∧
      exactValue (remainder x y) = Scalar.rem (exactValue x) (exactValue y) := by
  obtain ⟨negative, m, i, hxparts⟩ := hx
  obtain ⟨other, n, j, hyparts⟩ := hy
  have hcx := canonical_of_ofBits hxparts
  have hcy := canonical_of_ofBits hyparts
  have hxe : exactValue x = signed negative (m * 2 ^ i) := (exactValue_of_parts hxparts).2
  have hye : exactValue y = signed other (n * 2 ^ j) := (exactValue_of_parts hyparts).2
  have hn : 0 < n := by
    rcases Nat.eq_zero_or_pos n with rfl | hpos
    · simp [hye] at hne
    · exact hpos
  have hm' := aligned_value m (min_le_left i j)
  have hn' := aligned_value n (min_le_right i j)
  have hshort : m * 2 ^ (i - min i j).toNat % (n * 2 ^ (j - min i j).toNat) < 2 ^ 53 := by
    rcases le_total i j with hle | hle
    · -- The mantissa of the dividend is not shifted, and the remainder is not greater.
      refine (Nat.mod_le _ _).trans_lt ?_
      rw [min_eq_left hle, sub_self, Int.toNat_zero, Nat.pow_zero, Nat.mul_one]
      exact hcx.high
    · rw [min_eq_right hle, sub_self, Int.toNat_zero, Nat.pow_zero, Nat.mul_one]
      exact (Nat.mod_lt _ hn).trans hcy.high
  obtain ⟨hfinite, hexact⟩ := exactValue_pack negative hshort (le_min hcx.least hcy.least)
    ((min_le_left i j).trans hcx.greatest)
  have hremainder : remainder x y =
      pack negative (m * 2 ^ (i - min i j).toNat % (n * 2 ^ (j - min i j).toNat)) (min i j) := by
    unfold remainder
    rw [hxparts, hyparts]
    dsimp only
    rw [if_neg hn.ne']
    simp only [Nat.pow_eq]
  rw [hremainder]
  refine ⟨hfinite, ?_⟩
  rw [hexact, mod_value, hm', hn', hxe, hye,
    rem_signed negative other (scaled_nonneg m i) (scaled_pos hn j)]

end Binary64

end ComputedCss
