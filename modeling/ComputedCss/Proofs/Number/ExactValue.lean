import Mathlib.Algebra.Order.Floor.Semifield
import Mathlib.Data.Rat.Floor
import ComputedCss.Proofs.Number.Rounding

/-!
# Doubles as exact numbers

A double that is finite is a rational number. The program takes doubles apart by their bits, and the
arithmetic of doubles unpacks them; both give the same parts. Over the exact numbers comparison and
whole part are what they say, and sums and quotients are the nearest doubles.

* `ofFloat_eq`: the parts of a double are those of its model.
* `IsCanonical.unpack_pack`: a number with canonical parts is packed and unpacked without a loss.
* `exactValue`: the number that a double is.
* `lt_zero_iff`, `natPart_eq`: comparison with zero, and the whole part.
* `Rounds.le_of_le`, `Rounds.ge_of_ge`: rounding does not go past a double.
* `add_rounds`, `div_rounds`: sums and quotients.
-/

namespace ComputedCss

namespace Binary64

open Float.Model
open Float.Model.UnpackedFloat (Sign)

/-! ## Bits -/

/-- The parts of an unpacked number. -/
def partsOf : UnpackedFloat → Binary64
  | .notANumber => .notANumber
  | .infinity sign => .infinite (sign == .negative)
  | .zero sign => .finite (sign == .negative) 0 (-1074)
  | .finite sign m e _ => .finite (sign == .negative) m e

@[simp] theorem partsOf_notANumber : partsOf .notANumber = .notANumber := rfl

@[simp] theorem partsOf_infinity (sign : Sign) :
    partsOf (.infinity sign) = .infinite (sign == .negative) := rfl

@[simp] theorem partsOf_zero (sign : Sign) :
    partsOf (.zero sign) = .finite (sign == .negative) 0 (-1074) := rfl

@[simp] theorem partsOf_finite (sign : Sign) {m : Nat} (e : Int) (hpos : 0 < m) :
    partsOf (.finite sign m e hpos) = .finite (sign == .negative) m e := rfl

section Bits

variable (bits : BitVec Format.binary64.numBits)

theorem toNat_unpackMantissa :
    (UnpackedFloat.unpackMantissa bits).toNat = bits.toNat % 2 ^ 52 := by
  unfold UnpackedFloat.unpackMantissa
  rw [BitVec.toNat_cast, BitVec.extractLsb_toNat]
  rfl

theorem toNat_unpackExponent :
    (UnpackedFloat.unpackExponent bits).toNat = bits.toNat / 2 ^ 52 % 2 ^ 11 := by
  unfold UnpackedFloat.unpackExponent
  rw [BitVec.toNat_cast, BitVec.extractLsb_toNat, Nat.shiftRight_eq_div_pow]
  rfl

theorem toNat_unpackSign :
    (UnpackedFloat.unpackSign bits).toNat = bits.toNat / 2 ^ 63 := by
  have hlt : bits.toNat < 2 ^ 64 := bits.isLt
  unfold UnpackedFloat.unpackSign
  rw [BitVec.toNat_cast, BitVec.extractLsb_toNat, Nat.shiftRight_eq_div_pow]
  show bits.toNat / 2 ^ 63 % 2 = bits.toNat / 2 ^ 63
  omega

theorem sign_of_bits : (Sign.ofBitVec (UnpackedFloat.unpackSign bits) == .negative) =
    decide (2 ^ 63 ≤ bits.toNat) := by
  have hlt : bits.toNat < 2 ^ 64 := bits.isLt
  have hsign := toNat_unpackSign bits
  by_cases hlow : 2 ^ 63 ≤ bits.toNat
  · have hone : UnpackedFloat.unpackSign bits = 1#1 := by
      rw [← BitVec.toNat_inj, hsign, BitVec.toNat_ofNat]
      omega
    rw [hone, decide_eq_true hlow]
    rfl
  · have hzero : UnpackedFloat.unpackSign bits = 0#1 := by
      rw [← BitVec.toNat_inj, hsign, BitVec.toNat_ofNat]
      omega
    rw [hzero, decide_eq_false hlow]
    rfl

theorem ofBits_toNat : ofBits bits.toNat = partsOf (UnpackedFloat.unpack .binary64 bits) := by
  have hall : (UnpackedFloat.unpackExponent bits = -1#_) ↔
      bits.toNat / 2 ^ 52 % 2 ^ 11 = 2047 := by
    rw [← BitVec.toNat_inj, toNat_unpackExponent]
    rfl
  have hnone : (UnpackedFloat.unpackExponent bits = 0#_) ↔ bits.toNat / 2 ^ 52 % 2 ^ 11 = 0 := by
    rw [← BitVec.toNat_inj, toNat_unpackExponent]
    rfl
  have hempty : (UnpackedFloat.unpackMantissa bits = 0#_) ↔ bits.toNat % 2 ^ 52 = 0 := by
    rw [← BitVec.toNat_inj, toNat_unpackMantissa]
    rfl
  unfold ofBits
  simp only [Nat.pow_eq]
  unfold UnpackedFloat.unpack
  by_cases hgreatest : bits.toNat / 2 ^ 52 % 2 ^ 11 = 2047
  · rw [if_pos hgreatest, if_pos (hall.mpr hgreatest)]
    by_cases hfraction : bits.toNat % 2 ^ 52 = 0
    · rw [if_pos hfraction, if_pos (hempty.mpr hfraction), partsOf_infinity, sign_of_bits]
    · rw [if_neg hfraction, if_neg (mt hempty.mp hfraction), partsOf_notANumber]
  · rw [if_neg hgreatest, if_neg (mt hall.mp hgreatest)]
    by_cases hleast : bits.toNat / 2 ^ 52 % 2 ^ 11 = 0
    · rw [if_pos hleast, if_pos (hnone.mpr hleast)]
      by_cases hfraction : bits.toNat % 2 ^ 52 = 0
      · rw [dif_pos (hempty.mpr hfraction), partsOf_zero, sign_of_bits, hfraction]
      · rw [dif_neg (mt hempty.mp hfraction), partsOf_finite, sign_of_bits, toNat_unpackMantissa,
          toNat_unpackExponent, hleast]
        rfl
    · have himplicit : (1#1 ++ UnpackedFloat.unpackMantissa bits).toNat =
          2 ^ 52 + bits.toNat % 2 ^ 52 := by
        rw [BitVec.toNat_append, ← Nat.shiftLeft_add_eq_or_of_lt (BitVec.isLt _),
          toNat_unpackMantissa]
        rfl
      rw [if_neg hleast, if_neg (mt hnone.mp hleast), partsOf_finite, sign_of_bits, himplicit,
        toNat_unpackExponent]
      rfl

end Bits

theorem ofFloat_eq (x : Float) : ofFloat x = partsOf x.toModel.unpack :=
  ofBits_toNat x.toModel.toBits.toBitVec

/-! ## Canonical parts -/

/-- The mantissa has 53 bits, or the exponent is the least. -/
structure IsCanonical (m : Nat) (e : Int) : Prop where
  high : m < 2 ^ 53
  least : -1074 ≤ e
  greatest : e ≤ 971
  full : 2 ^ 52 ≤ m ∨ e = -1074

theorem canonical_of_ofBits {n : Nat} {negative : Bool} {m : Nat} {e : Int}
    (h : ofBits n = .finite negative m e) : IsCanonical m e := by
  unfold ofBits at h
  simp only [Nat.pow_eq] at h
  split at h
  · split at h <;> cases h
  · split at h
    · cases h
      exact ⟨by omega, by omega, by omega, .inr rfl⟩
    · cases h
      exact ⟨by omega, by omega, by omega, .inl (by omega)⟩

theorem pack_short (sign : Sign) {m : Nat} (hpos : 0 < m) (hm : m < 2 ^ 52) :
    UnpackedFloat.pack .binary64 (.finite sign m (-1074) hpos) =
      UnpackedFloat.packComponents .binary64 sign 0#_ (BitVec.ofNat _ m) := by
  have hlog : m.log2 < 52 := (Nat.log2_lt hpos.ne').mpr hm
  have hnot : ¬m.log2 + 1 = Format.binary64.mantissaBits := by
    show ¬m.log2 + 1 = 53
    omega
  have hbiased : (-1074 + (Format.binary64.exponentBias : Int) + (52 : Nat)).toNat = 1 := by decide
  unfold UnpackedFloat.pack
  dsimp only
  rw [hbiased, if_neg (by decide), if_neg hnot]

theorem unpack_short {bits : BitVec Format.binary64.numBits} {sign : Sign} {m : Nat}
    (hexponent : UnpackedFloat.unpackExponent bits = 0#_)
    (hsign : Sign.ofBitVec (UnpackedFloat.unpackSign bits) = sign)
    (hm : (UnpackedFloat.unpackMantissa bits).toNat = m) (hpos : 0 < m) :
    UnpackedFloat.unpack .binary64 bits = .finite sign m (-1074) hpos := by
  have hne : UnpackedFloat.unpackMantissa bits ≠ 0#_ := by
    intro h
    rw [h] at hm
    exact hpos.ne hm
  have hleast : ¬UnpackedFloat.unpackExponent bits = -1#_ := by
    rw [hexponent]
    decide
  unfold UnpackedFloat.unpack
  dsimp only
  rw [if_neg hleast, if_pos hexponent, dif_neg hne]
  refine finite_congr hsign hm ?_
  rw [hexponent]
  rfl

theorem unpack_pack_short (sign : Sign) {m : Nat} (hpos : 0 < m) (hm : m < 2 ^ 52) :
    UnpackedFloat.unpack .binary64 (UnpackedFloat.pack .binary64 (.finite sign m (-1074) hpos)) =
      .finite sign m (-1074) hpos := by
  rw [pack_short sign hpos hm]
  refine unpack_short ?_ ?_ ?_ hpos
  · exact UnpackedFloat.unpackExponent_packComponents
  · rw [unpackSign_packComponents]
    cases sign <;> rfl
  · rw [UnpackedFloat.unpackMantissa_packComponents, BitVec.toNat_ofNat, Nat.mod_eq_of_lt hm]

theorem unpack_pack_zero (sign : Sign) :
    UnpackedFloat.unpack .binary64 (UnpackedFloat.pack .binary64 (.zero sign)) = .zero sign := by
  cases sign <;> rfl

theorem IsCanonical.unpack_pack {m : Nat} {e : Int} (h : IsCanonical m e) (sign : Sign)
    (hpos : 0 < m) :
    UnpackedFloat.unpack .binary64 (UnpackedFloat.pack .binary64 (.finite sign m e hpos)) =
      .finite sign m e hpos := by
  by_cases hfull : 2 ^ 52 ≤ m
  · exact unpack_pack_full sign ⟨hfull, h.high⟩ h.least h.greatest
  · obtain rfl := h.full.resolve_left hfull
    exact unpack_pack_short sign hpos (by omega)

theorem eq_of_partsOf {u : UnpackedFloat} {negative : Bool} {m : Nat} {e : Int}
    (h : partsOf u = .finite negative m e) :
    (u = .zero (signOf negative) ∧ m = 0 ∧ e = -1074) ∨
      ∃ hpos, u = .finite (signOf negative) m e hpos := by
  have hsign : ∀ sign : Sign, signOf (sign == .negative) = sign := by
    intro sign
    cases sign <;> rfl
  cases u with
  | notANumber => cases h
  | infinity sign => cases h
  | zero sign =>
    cases h
    exact .inl ⟨by rw [hsign], rfl, rfl⟩
  | finite sign m e hpos =>
    cases h
    exact .inr ⟨hpos, by rw [hsign]⟩

theorem ofFloat_ofBits {bits : UInt64} {negative : Bool} {m : Nat} {e : Int}
    (h : ofBits bits.toNat = .finite negative m e) :
    ofFloat (Float.ofBits bits) = .finite negative m e := by
  have hcanonical := canonical_of_ofBits h
  have hparts : partsOf (UnpackedFloat.unpack .binary64 bits.toBitVec) = .finite negative m e :=
    (ofBits_toNat bits.toBitVec).symm.trans h
  have hsame : UnpackedFloat.unpack .binary64
      (UnpackedFloat.pack .binary64 (UnpackedFloat.unpack .binary64 bits.toBitVec)) =
      UnpackedFloat.unpack .binary64 bits.toBitVec := by
    rcases eq_of_partsOf hparts with ⟨hzero, -, -⟩ | ⟨hpos, hfinite⟩
    · rw [hzero, unpack_pack_zero]
    · rw [hfinite, hcanonical.unpack_pack]
  calc ofFloat (Float.ofBits bits) = partsOf (Float.ofBits bits).toModel.unpack := ofFloat_eq _
    _ = partsOf (UnpackedFloat.unpack .binary64 bits.toBitVec) := congrArg partsOf hsame
    _ = .finite negative m e := hparts

/-! ## Exact values -/

/-- The number that the parts stand for, and zero when they stand for none. -/
def toRat : Binary64 → Rat
  | .finite negative m e => (if negative then -1 else 1) * (m * 2 ^ e)
  | _ => 0

/-- The number that a double is. -/
def exactValue (x : Float) : Rat := toRat (ofFloat x)

/-- A double that is a number. -/
def IsFinite (x : Float) : Prop := ∃ negative m e, ofFloat x = .finite negative m e

theorem exactValue_of_parts {x : Float} {negative : Bool} {m : Nat} {e : Int}
    (h : ofFloat x = .finite negative m e) :
    IsFinite x ∧ exactValue x = (if negative then -1 else 1) * (m * 2 ^ e) :=
  ⟨⟨negative, m, e, h⟩, by rw [exactValue, h, toRat]⟩

theorem IsFinite.unpack_cases {x : Float} (h : IsFinite x) :
    (∃ sign, x.toModel.unpack = .zero sign ∧ exactValue x = 0) ∨
    ∃ sign m e, ∃ hpos : 0 < m, x.toModel.unpack = .finite sign m e hpos ∧ IsCanonical m e ∧
      exactValue x = (sign.apply m : Int) * 2 ^ e := by
  obtain ⟨negative, m, e, hparts⟩ := h
  have hcanonical := canonical_of_ofBits hparts
  obtain ⟨-, hvalue⟩ := exactValue_of_parts hparts
  rw [hvalue]
  rcases eq_of_partsOf ((ofFloat_eq x).symm.trans hparts) with ⟨hzero, rfl, -⟩ | ⟨hpos, hfinite⟩
  · exact .inl ⟨_, hzero, by simp⟩
  · refine .inr ⟨_, m, e, hpos, hfinite, hcanonical, ?_⟩
    cases negative <;> simp [signOf, Sign.apply]

theorem isFinite_of_unpack {x : Float} {u : UnpackedFloat} (hx : x.toModel.unpack = u)
    {negative : Bool} {m : Nat} {e : Int} (hu : partsOf u = .finite negative m e) :
    IsFinite x ∧ exactValue x = (if negative then -1 else 1) * (m * 2 ^ e) :=
  exactValue_of_parts (by rw [ofFloat_eq, hx, hu])

theorem isFinite_iff {x : Float} : x.isFinite = true ↔ IsFinite x := by
  have hmodel : x.isFinite = x.toModel.unpack.isFinite := rfl
  rw [hmodel]
  unfold IsFinite
  rw [ofFloat_eq]
  cases x.toModel.unpack with
  | notANumber => exact iff_of_false Bool.false_ne_true (by simp)
  | infinity sign => exact iff_of_false Bool.false_ne_true (by simp)
  | zero sign => exact iff_of_true rfl ⟨_, _, _, rfl⟩
  | finite sign m e hpos => exact iff_of_true rfl ⟨_, _, _, rfl⟩

theorem unpack_zero : (0.0 : Float).toModel.unpack = .zero .positive := by
  have hparts : ofFloat 0.0 = .finite false 0 (-1074) := by decide +kernel
  rcases eq_of_partsOf ((ofFloat_eq 0.0).symm.trans hparts) with ⟨hzero, -⟩ | ⟨hpos, -⟩
  · exact hzero
  · exact absurd hpos (Nat.lt_irrefl 0)

theorem lt_zero_iff {x : Float} (h : IsFinite x) : Scalar.lt x 0.0 = true ↔ exactValue x < 0 := by
  have hmodel : Scalar.lt x 0.0 = true ↔
      x.toModel.unpack.lt (0.0 : Float).toModel.unpack = true := by
    show decide (x < 0.0) = true ↔ _
    rw [decide_eq_true_iff]
    show decide (x.toModel < (0.0 : Float).toModel) = true ↔ _
    rw [decide_eq_true_iff]
    rfl
  rw [hmodel, unpack_zero]
  rcases h.unpack_cases with ⟨sign, hx, hvalue⟩ | ⟨sign, m, e, hpos, hx, -, hvalue⟩
  · rw [hx, hvalue]
    exact iff_of_false Bool.false_ne_true (lt_irrefl 0)
  · have hm : (0 : Rat) < m * 2 ^ e := scaled_pos hpos e
    rw [hx, hvalue]
    cases sign with
    | negative =>
      have hneg : (Sign.negative.apply m : Int) * (2 : Rat) ^ e = -(m * 2 ^ e) := by
        simp [Sign.apply]
      rw [hneg]
      exact iff_of_true rfl (by linarith)
    | positive =>
      exact iff_of_false Bool.false_ne_true (not_lt.mpr hm.le)

theorem natPart_eq {x : Float} (h : IsFinite x) : natPart x = ⌊exactValue x⌋₊ := by
  obtain ⟨negative, m, e, hparts⟩ := h
  have hm : (0 : Rat) ≤ m * 2 ^ e := scaled_nonneg m e
  rw [natPart, exactValue, hparts, toRat]
  cases negative with
  | true =>
    rw [if_pos rfl, neg_one_mul, Nat.floor_of_nonpos (neg_nonpos.mpr hm)]
  | false =>
    rw [if_neg Bool.false_ne_true, one_mul]
    cases e with
    | ofNat shift =>
      have hwhole : (m : Rat) * 2 ^ (Int.ofNat shift) = ((m * 2 ^ shift : Nat) : Rat) := by
        rw [Int.ofNat_eq_natCast, zpow_natCast]
        push_cast
        rfl
      rw [hwhole, Nat.floor_natCast]
      rfl
    | negSucc shift =>
      have hquotient : (m : Rat) * 2 ^ (Int.negSucc shift) =
          (m : Rat) / (2 ^ (shift + 1) : Nat) := by
        rw [zpow_negSucc, ← div_eq_mul_inv]
        push_cast
        rfl
      rw [hquotient, Nat.floor_div_eq_div]
      rfl

/-! ## Rounded results -/

theorem Rounds.full_mantissa {x : Rat} {n : Nat} {e : Int} (h : Rounds x n e) :
    2 ^ 52 ≤ n ∨ e = -1074 := by
  rcases h.full with hleast | hfull
  · exact .inr hleast
  · have hscaled : (2 : Rat) ^ 52 ≤ x / 2 ^ e := by
      rw [le_div_iff₀ (two_zpow_pos e)]
      rw [add_comm, two_zpow_add] at hfull
      exact_mod_cast hfull
    have hnear := (abs_le.mp h.nearest.near).1
    have hlt : ((2 ^ 52 : Nat) : Rat) < (n + 1 : Nat) := by
      push_cast
      linarith
    exact .inl (Nat.lt_succ_iff.mp (by exact_mod_cast hlt))

theorem IsCanonical.exact_eq {m : Nat} {e : Int} (h : IsCanonical m e) {sign : Sign} {hpos : 0 < m}
    {y : Float} (hy : y.toModel = Float.Model.pack (.finite sign m e hpos)) :
    IsFinite y ∧ exactValue y = (sign.apply m : Int) * 2 ^ e := by
  have hunpack : y.toModel.unpack = .finite sign m e hpos := by
    rw [hy]
    exact h.unpack_pack sign hpos
  obtain ⟨hfinite, hexact⟩ := isFinite_of_unpack hunpack rfl
  refine ⟨hfinite, hexact.trans ?_⟩
  cases sign with
  | negative =>
    show (-1 : Rat) * (m * 2 ^ e) = ((-(m : Int) : Int) : Rat) * 2 ^ e
    push_cast
    ring
  | positive =>
    show (1 : Rat) * (m * 2 ^ e) = ((m : Int) : Rat) * 2 ^ e
    push_cast
    ring

theorem exact_eq_zero {y : Float} {sign : Sign} (hy : y.toModel = Float.Model.pack (.zero sign)) :
    IsFinite y ∧ exactValue y = 0 := by
  have hunpack : y.toModel.unpack = .zero sign := by
    rw [hy]
    exact unpack_pack_zero sign
  obtain ⟨hfinite, hexact⟩ := isFinite_of_unpack hunpack rfl
  exact ⟨hfinite, hexact.trans (by simp)⟩

theorem Rounds.exact_eq {x : Rat} {n : Nat} {e : Int} (h : Rounds x n e) (he : e ≤ 970)
    {y : Float} (hy : y.toModel = Float.Model.pack (rounded .positive n e)) :
    IsFinite y ∧ exactValue y = n * 2 ^ e := by
  have hle := h.mantissa_le
  have hleast := h.least
  rw [rounded] at hy
  by_cases hpower : n = 2 ^ 53
  · rw [if_pos hpower] at hy
    have hcanonical : IsCanonical (2 ^ 52) (e + 1) := ⟨by decide, by omega, by omega, .inl le_rfl⟩
    obtain ⟨hfinite, hexact⟩ := hcanonical.exact_eq hy
    refine ⟨hfinite, hexact.trans ?_⟩
    show (((2 ^ 52 : Nat) : Int) : Rat) * 2 ^ (e + 1) = n * 2 ^ e
    rw [hpower, two_zpow_add]
    norm_num
    ring
  · rw [if_neg hpower] at hy
    by_cases hzero : n = 0
    · rw [dif_pos hzero] at hy
      obtain ⟨hfinite, hexact⟩ := exact_eq_zero hy
      exact ⟨hfinite, hexact.trans (by simp [hzero])⟩
    · rw [dif_neg hzero] at hy
      have hcanonical : IsCanonical n e := ⟨by omega, hleast, by omega, h.full_mantissa⟩
      obtain ⟨hfinite, hexact⟩ := hcanonical.exact_eq hy
      exact ⟨hfinite, hexact.trans (by simp [Sign.apply])⟩

theorem Rounds.exponent_le {x : Rat} {n : Nat} {e k : Int} (h : Rounds x n e) (hk : -1021 ≤ k)
    (hx : x < 2 ^ k) : e ≤ k - 53 := by
  rcases h.full with hleast | hfull
  · omega
  · have hlt : e + 52 < k := (zpow_lt_zpow_iff_right₀ one_lt_two).mp (hfull.trans_lt hx)
    omega

theorem IsCanonical.rounds {m : Nat} {e : Int} (h : IsCanonical m e) : Rounds (m * 2 ^ e) m e := by
  have hpos := two_zpow_pos e
  refine ⟨h.least, ?_, ?_, ?_⟩
  · have hm : (m : Rat) < 2 ^ 53 := by exact_mod_cast h.high
    rw [add_comm, two_zpow_add]
    exact mul_lt_mul_of_pos_right (by exact_mod_cast hm) hpos
  · refine h.full.symm.imp_right fun hfull => ?_
    have hm : (2 : Rat) ^ 52 ≤ m := by exact_mod_cast hfull
    rw [add_comm, two_zpow_add]
    exact mul_le_mul_of_nonneg_right (by exact_mod_cast hm) hpos.le
  · rw [mul_div_cancel_right₀ _ hpos.ne']
    exact isNearest_of_lt (by rw [sub_self, abs_zero]; norm_num)

theorem Rounds.error_le {x : Rat} {n : Nat} {e : Int} (h : Rounds x n e) :
    |(n : Rat) * 2 ^ e - x| ≤ 2 ^ e / 2 := by
  have hpos := two_zpow_pos e
  have hscaled : (n : Rat) * 2 ^ e - x = (n - x / 2 ^ e) * 2 ^ e := by
    rw [sub_mul, div_mul_cancel₀ _ hpos.ne']
  rw [hscaled, abs_mul, abs_of_pos hpos]
  calc |(n : Rat) - x / 2 ^ e| * 2 ^ e ≤ 1 / 2 * 2 ^ e :=
        mul_le_mul_of_nonneg_right h.nearest.near hpos.le
    _ = 2 ^ e / 2 := by ring

theorem Rounds.le_of_le {x : Rat} {n m : Nat} {e i : Int} (h : Rounds x n e)
    (hcanonical : IsCanonical m i) (hx : x ≤ m * 2 ^ i) : (n : Rat) * 2 ^ e ≤ m * 2 ^ i := by
  have hpos := two_zpow_pos e
  have hlow := hcanonical.least
  rcases le_or_gt e i with hle | hgt
  · -- At the exponent of the result the double is a whole number.
    rw [← aligned_value m hle] at hx ⊢
    generalize m * 2 ^ (i - e).toNat = k at hx ⊢
    have hscaled : x / 2 ^ e ≤ k := (div_le_iff₀ hpos).mpr hx
    have hnear := (abs_le.mp h.nearest.near).2
    have hlt : (n : Rat) < (k + 1 : Nat) := by
      push_cast
      linarith
    have hnat : n ≤ k := Nat.lt_succ_iff.mp (by exact_mod_cast hlt)
    exact mul_le_mul_of_nonneg_right (by exact_mod_cast hnat) hpos.le
  · have hfull := h.full.resolve_left (by omega)
    have hhigh := hcanonical.rounds.high
    have hpower : (2 : Rat) ^ (i + 53) ≤ 2 ^ (e + 52) := zpow_le_zpow_right₀ one_le_two (by omega)
    linarith

theorem Rounds.ge_of_ge {x : Rat} {n m : Nat} {e i : Int} (h : Rounds x n e)
    (hcanonical : IsCanonical m i) (hx : m * 2 ^ i ≤ x) : (m : Rat) * 2 ^ i ≤ n * 2 ^ e := by
  have hpos := two_zpow_pos e
  have hlow := hcanonical.least
  rcases le_or_gt e i with hle | hgt
  · rw [← aligned_value m hle] at hx ⊢
    generalize m * 2 ^ (i - e).toNat = k at hx ⊢
    have hscaled : k ≤ x / 2 ^ e := (le_div_iff₀ hpos).mpr hx
    have hnear := (abs_le.mp h.nearest.near).1
    have hlt : (k : Rat) < (n + 1 : Nat) := by
      push_cast
      linarith
    have hnat : k ≤ n := Nat.lt_succ_iff.mp (by exact_mod_cast hlt)
    exact mul_le_mul_of_nonneg_right (by exact_mod_cast hnat) hpos.le
  · have hfull : (2 : Rat) ^ 52 ≤ n := by
      exact_mod_cast h.full_mantissa.resolve_right (by omega)
    calc (m : Rat) * 2 ^ i ≤ 2 ^ (i + 53) := hcanonical.rounds.high.le
      _ ≤ 2 ^ (52 + e) := zpow_le_zpow_right₀ one_le_two (by omega)
      _ = 2 ^ 52 * 2 ^ e := by
        rw [two_zpow_add]
        norm_num
      _ ≤ n * 2 ^ e := mul_le_mul_of_nonneg_right hfull hpos.le

theorem IsCanonical.le_of_lt {m k : Nat} {e i : Int} (h : IsCanonical m e) (hk : 2 ^ 52 ≤ k)
    (hlt : (m : Rat) * 2 ^ e < (k + 1 : Nat) * 2 ^ i) : (m : Rat) * 2 ^ e ≤ k * 2 ^ i := by
  have hpos := two_zpow_pos i
  rcases le_or_gt i e with hle | hgt
  · rw [← aligned_value m hle] at hlt ⊢
    have hcast := lt_of_mul_lt_mul_right hlt hpos.le
    have hnat : m * 2 ^ (e - i).toNat ≤ k := Nat.lt_succ_iff.mp (by exact_mod_cast hcast)
    exact mul_le_mul_of_nonneg_right (by exact_mod_cast hnat) hpos.le
  · have hfull : (2 : Rat) ^ 52 ≤ k := by exact_mod_cast hk
    calc (m : Rat) * 2 ^ e ≤ 2 ^ (e + 53) := h.rounds.high.le
      _ ≤ 2 ^ (52 + i) := zpow_le_zpow_right₀ one_le_two (by omega)
      _ = 2 ^ 52 * 2 ^ i := by
        rw [two_zpow_add]
        norm_num
      _ ≤ k * 2 ^ i := mul_le_mul_of_nonneg_right hfull hpos.le

theorem IsFinite.exists_canonical {x : Float} (h : IsFinite x) (hnonneg : 0 ≤ exactValue x) :
    ∃ m e, IsCanonical m e ∧ exactValue x = m * 2 ^ e := by
  obtain ⟨negative, m, e, hparts⟩ := h
  refine ⟨m, e, canonical_of_ofBits hparts, ?_⟩
  obtain ⟨-, hvalue⟩ := exactValue_of_parts hparts
  rw [hvalue] at hnonneg ⊢
  cases negative with
  | true =>
    have hm : (0 : Rat) ≤ m * 2 ^ e := scaled_nonneg m e
    rw [if_pos rfl] at hnonneg ⊢
    linarith
  | false => rw [if_neg Bool.false_ne_true, one_mul]

theorem apply_eq_of_nonneg {sign : Sign} {m : Nat} {e : Int} (hpos : 0 < m)
    (h : 0 ≤ (sign.apply m : Rat) * 2 ^ e) :
    sign = .positive ∧ (sign.apply m : Rat) * 2 ^ e = m * 2 ^ e := by
  cases sign with
  | positive => exact ⟨rfl, rfl⟩
  | negative =>
    have hm : (0 : Rat) < m * 2 ^ e := scaled_pos hpos e
    simp only [Sign.apply, Int.cast_neg, Int.cast_natCast, neg_mul] at h
    linarith

theorem IsCanonical.exists_rounds {m : Nat} {e : Int} (h : IsCanonical m e) {sign : Sign}
    {hpos : 0 < m} {z : Float} (hz : z.toModel = Float.Model.pack (.finite sign m e hpos))
    {v : Rat} (hv : v = (sign.apply m : Int) * 2 ^ e) (hvpos : 0 < v) :
    ∃ n e, Rounds v n e ∧ IsFinite z ∧ exactValue z = n * 2 ^ e := by
  obtain ⟨hfinite, hexact⟩ := h.exact_eq hz
  obtain ⟨-, hpositive⟩ := apply_eq_of_nonneg hpos (hv ▸ hvpos.le)
  rw [hv, hpositive]
  exact ⟨m, e, h.rounds, hfinite, hexact.trans hpositive⟩

/-- **A positive sum of doubles is rounded to the nearest double.** -/
theorem add_rounds {x y : Float} (hx : IsFinite x) (hy : IsFinite y)
    (hpos : 0 < exactValue x + exactValue y)
    (hrange : exactValue x + exactValue y < 2 ^ (1000 : Int)) :
    ∃ n e, Rounds (exactValue x + exactValue y) n e ∧ IsFinite (x + y) ∧
      exactValue (x + y) = n * 2 ^ e := by
  have hmodel : (x + y).toModel =
      Float.Model.pack (UnpackedFloat.add .binary64 x.toModel.unpack y.toModel.unpack) := rfl
  rcases hx.unpack_cases with ⟨s₁, hxu, hxe⟩ | ⟨s₁, m₁, e₁, hpos₁, hxu, hc₁, hxe⟩ <;>
    rcases hy.unpack_cases with ⟨s₂, hyu, hye⟩ | ⟨s₂, m₂, e₂, hpos₂, hyu, hc₂, hye⟩ <;>
    rw [hxu, hyu] at hmodel
  · rw [hxe, hye, add_zero] at hpos
    exact absurd hpos (lt_irrefl 0)
  · exact hc₂.exists_rounds hmodel (by rw [hxe, hye, zero_add]) hpos
  · exact hc₁.exists_rounds hmodel (by rw [hxe, hye, add_zero]) hpos
  · have hsum : (s₁.apply m₁ : Rat) * 2 ^ e₁ + (s₂.apply m₂ : Rat) * 2 ^ e₂ =
        exactValue x + exactValue y := by rw [hxe, hye]
    obtain ⟨n, e, hrounds, hadd⟩ := exists_add hpos₁ hpos₂ hsum hpos
    rw [hadd] at hmodel
    obtain ⟨hfinite, hexact⟩ :=
      hrounds.exact_eq ((hrounds.exponent_le (by norm_num) hrange).trans (by norm_num)) hmodel
    exact ⟨n, e, hrounds, hfinite, hexact⟩

/-- **A quotient of positive doubles is rounded to the nearest double.** -/
theorem div_rounds {x y : Float} (hx : IsFinite x) (hy : IsFinite y) (hnonneg : 0 ≤ exactValue x)
    (hpos : 0 < exactValue y) (hrange : exactValue x / exactValue y < 2 ^ (1000 : Int)) :
    ∃ n e, Rounds (exactValue x / exactValue y) n e ∧ IsFinite (x / y) ∧
      exactValue (x / y) = n * 2 ^ e := by
  have hmodel : (x / y).toModel =
      Float.Model.pack (UnpackedFloat.div .binary64 x.toModel.unpack y.toModel.unpack) := rfl
  rcases hy.unpack_cases with ⟨s₂, hyu, hye⟩ | ⟨s₂, m₂, e₂, hpos₂, hyu, -, hye⟩
  · rw [hye] at hpos
    exact absurd hpos (lt_irrefl 0)
  obtain ⟨rfl, hy₂⟩ := apply_eq_of_nonneg hpos₂ (hye ▸ hpos.le)
  rcases hx.unpack_cases with ⟨s₁, hxu, hxe⟩ | ⟨s₁, m₁, e₁, hpos₁, hxu, -, hxe⟩
  · rw [hxu, hyu] at hmodel
    obtain ⟨hfinite, hexact⟩ := exact_eq_zero hmodel
    have hzero : Rounds 0 0 (-1074) :=
      ⟨le_rfl, two_zpow_pos _, .inl rfl, isNearest_of_lt (by norm_num)⟩
    rw [hxe, zero_div]
    exact ⟨0, -1074, hzero, hfinite, hexact.trans (by simp)⟩
  · obtain ⟨rfl, hx₁⟩ := apply_eq_of_nonneg hpos₁ (hxe ▸ hnonneg)
    have hquotient : exactValue x / exactValue y = m₁ * 2 ^ e₁ / (m₂ * 2 ^ e₂) := by
      rw [hxe, hye, hx₁, hy₂]
    rw [hquotient] at hrange ⊢
    obtain ⟨n, e, hrounds, hdiv⟩ := exists_div .positive .positive e₁ e₂ hpos₁ hpos₂
    rw [hxu, hyu, hdiv] at hmodel
    obtain ⟨hfinite, hexact⟩ :=
      hrounds.exact_eq ((hrounds.exponent_le (by norm_num) hrange).trans (by norm_num)) hmodel
    exact ⟨n, e, hrounds, hfinite, hexact⟩

end Binary64

end ComputedCss
