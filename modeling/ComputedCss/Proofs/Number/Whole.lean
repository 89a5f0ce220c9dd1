import ComputedCss.Number.Double
import Mathlib.Algebra.Ring.Nat

/-!
# Whole doubles

A whole number below `2 ^ 53` is a double, exactly: its mantissa is shifted up to 53 bits. So
rounding a double down once more changes nothing.

* `IsFull`: a mantissa of 53 bits; `roundWithAccuracy_exact`: such a number is not rounded.
* `unpack_pack_full`: it is packed into 64 bits and unpacked again without a loss.
* `ofFloat_ofWhole`: the parts of a whole double.
* `floor_floor`: the result.
-/

namespace ComputedCss

namespace Binary64

open Float.Model
open Float.Model.UnpackedFloat (Sign ExtendedMantissa)

/-! ## Mantissas of 53 bits -/

/-- The mantissa has 53 bits, the greatest one set. -/
structure IsFull (m : Nat) : Prop where
  low : 2 ^ 52 ≤ m
  high : m < 2 ^ 53

theorem log2_eq {m k : Nat} (hlow : 2 ^ k ≤ m) (hhigh : m < 2 ^ (k + 1)) : m.log2 = k :=
  (Nat.log2_eq_iff (Nat.ne_of_gt (Nat.lt_of_lt_of_le (Nat.two_pow_pos k) hlow))).mpr ⟨hlow, hhigh⟩

variable {m : Nat} {e : Int}

theorem IsFull.pos (h : IsFull m) : 0 < m :=
  Nat.lt_of_lt_of_le (Nat.two_pow_pos 52) h.low

theorem IsFull.log2_mul (h : IsFull m) (k : Nat) : (m * 2 ^ k).log2 = 52 + k := by
  refine log2_eq ?_ ?_
  · rw [Nat.pow_add]
    exact Nat.mul_le_mul_right _ h.low
  · rw [show 52 + k + 1 = 53 + k by omega, Nat.pow_add]
    exact Nat.mul_lt_mul_of_pos_right h.high (Nat.two_pow_pos k)

theorem shiftRight_exact (m k : Nat) :
    (⟨m * 2 ^ k, false, false⟩ : ExtendedMantissa) >>> k = ⟨m, false, false⟩ := by
  show k.repeat ExtendedMantissa.shiftRightOne ⟨m * 2 ^ k, false, false⟩ = _
  induction k generalizing m with
  | zero =>
    rw [Nat.pow_zero, Nat.mul_one]
    rfl
  | succ k ih =>
    have hone : ExtendedMantissa.shiftRightOne ⟨m * 2, false, false⟩ = ⟨m, false, false⟩ := by
      simp [ExtendedMantissa.shiftRightOne]
    rw [Nat.repeat, Nat.pow_succ', ← Nat.mul_assoc, ih (m * 2), hone]

theorem targetExponent_totalExponent (m : Nat) (e : Int) :
    Format.binary64.targetExponent (totalExponent m e) = max (m.log2 + 1 + e - 53) (-1074) := rfl

theorem shiftToTargetExponent_exact (h : IsFull m) (he : -1074 ≤ e) (k : Nat) :
    UnpackedFloat.shiftToTargetExponent .binary64 (m * 2 ^ k) (e - k) .exact =
      (⟨m, false, false⟩, e) := by
  have htarget : Format.binary64.targetExponent (totalExponent (m * 2 ^ k) (e - k)) = e := by
    rw [targetExponent_totalExponent, h.log2_mul]
    omega
  have hshift : (e - (e - k)).toNat = k := by omega
  unfold UnpackedFloat.shiftToTargetExponent UnpackedFloat.shiftToExponent
  rw [htarget]
  dsimp only
  rw [hshift]
  refine Prod.ext (shiftRight_exact m k) ?_
  show e - k + k = e
  omega

theorem roundWithAccuracy_exact (sign : Sign) (h : IsFull m) (he : -1074 ≤ e) (k : Nat) :
    UnpackedFloat.roundWithAccuracy .binary64 sign (m * 2 ^ k) (e - k) .exact =
      .finite sign m e h.pos := by
  have hfinal := shiftToTargetExponent_exact h he 0
  rw [Nat.pow_zero, Nat.mul_one, show e - ((0 : Nat) : Int) = e by omega] at hfinal
  unfold UnpackedFloat.roundWithAccuracy
  rw [shiftToTargetExponent_exact h he k]
  dsimp only
  rw [show (ExtendedMantissa.mk m false false).roundedMantissa = m from rfl, hfinal]
  dsimp only
  rw [dif_neg (Nat.ne_of_gt h.pos)]

/-! ## Packed numbers -/

theorem pack_full (sign : Sign) (h : IsFull m) (he' : e ≤ 971) :
    UnpackedFloat.pack .binary64 (.finite sign m e h.pos) =
      UnpackedFloat.packComponents .binary64 sign (BitVec.ofNat _ (e + 1075).toNat)
        (BitVec.ofNat _ m) := by
  have hbiased : (e + (Format.binary64.exponentBias : Int) + (52 : Nat)).toNat =
      (e + 1075).toNat := by
    simp only [Format.exponentBias]
    omega
  unfold UnpackedFloat.pack
  dsimp only
  rw [hbiased, log2_eq h.low h.high, if_neg (show ¬2 ^ 11 ≤ (e + 1075).toNat + 1 by omega),
    if_pos (show 52 + 1 = Format.binary64.mantissaBits from rfl)]

theorem unpackSign_packComponents {format : Format} (sign : Sign)
    (exponent : BitVec format.exponentBits) (mantissa : BitVec format.mantissaBitsWithoutImplicit) :
    UnpackedFloat.unpackSign (UnpackedFloat.packComponents format sign exponent mantissa) =
      sign.toBitVec := by
  ext i hi
  obtain rfl : i = 0 := by omega
  show (BitVec.cast _ (BitVec.extractLsb _ _ (sign.toBitVec ++ exponent ++ mantissa)))[0] = _
  simp [BitVec.getLsbD_append, BitVec.getElem_append]

theorem IsFull.toNat_implicit (h : IsFull m) : (1#1 ++ BitVec.ofNat 52 m).toNat = m := by
  have hlow := h.low
  have hhigh := h.high
  have hmod : m % 2 ^ 52 = m - 2 ^ 52 := by omega
  rw [BitVec.toNat_append, BitVec.toNat_ofNat, BitVec.toNat_ofNat,
    ← Nat.shiftLeft_add_eq_or_of_lt (Nat.mod_lt _ (Nat.two_pow_pos 52)), hmod, Nat.shiftLeft_eq]
  omega

theorem finite_congr {sign sign' : Sign} {m m' : Nat} {e e' : Int} {hpos : 0 < m} {hpos' : 0 < m'}
    (hsign : sign = sign') (hm : m = m') (he : e = e') :
    UnpackedFloat.finite sign m e hpos = .finite sign' m' e' hpos' := by
  subst hsign hm he
  rfl

theorem unpack_eq {format : Format} {bits : BitVec format.numBits} {sign : Sign}
    (hnotAll : UnpackedFloat.unpackExponent bits ≠ -1#_)
    (hnotNone : UnpackedFloat.unpackExponent bits ≠ 0#_)
    (hsign : Sign.ofBitVec (UnpackedFloat.unpackSign bits) = sign)
    (hm : (1#1 ++ UnpackedFloat.unpackMantissa bits).toNat = m)
    (he : ((UnpackedFloat.unpackExponent bits).toNat : Int) -
      (format.exponentBias + format.mantissaBitsWithoutImplicit) = e) (hpos : 0 < m) :
    UnpackedFloat.unpack format bits = .finite sign m e hpos := by
  unfold UnpackedFloat.unpack
  dsimp only
  rw [if_neg hnotAll, if_neg hnotNone]
  exact finite_congr hsign hm he

theorem unpack_pack_full (sign : Sign) (h : IsFull m) (he : -1074 ≤ e) (he' : e ≤ 971) :
    UnpackedFloat.unpack .binary64 (UnpackedFloat.pack .binary64 (.finite sign m e h.pos)) =
      .finite sign m e h.pos := by
  have hexponent : (BitVec.ofNat 11 (e + 1075).toNat).toNat = (e + 1075).toNat := by
    rw [BitVec.toNat_ofNat, Nat.mod_eq_of_lt (by omega)]
  have hne : ∀ b : BitVec 11, b.toNat ≠ (e + 1075).toNat →
      BitVec.ofNat 11 (e + 1075).toNat ≠ b := by
    rintro b hb rfl
    exact hb hexponent
  rw [pack_full sign h he']
  refine unpack_eq ?_ ?_ ?_ ?_ ?_ h.pos
  · rw [UnpackedFloat.unpackExponent_packComponents]
    exact hne _ (by simp; omega)
  · rw [UnpackedFloat.unpackExponent_packComponents]
    exact hne _ (by simp; omega)
  · rw [unpackSign_packComponents]
    cases sign <;> rfl
  · rw [UnpackedFloat.unpackMantissa_packComponents]
    exact h.toNat_implicit
  · rw [UnpackedFloat.unpackExponent_packComponents]
    show ((BitVec.ofNat 11 (e + 1075).toNat).toNat : Int) - (1023 + 52) = e
    rw [hexponent]
    omega

/-! ## Whole numbers -/

/-- The mantissa of a whole number, shifted up to 53 bits. -/
def wholeMantissa (n : Nat) : Nat :=
  n * 2 ^ (52 - n.log2)

/-- A positive number of at most 53 bits. -/
structure IsShort (n : Nat) : Prop where
  pos : 0 < n
  lt : n < 2 ^ 53

variable {n : Nat}

theorem IsShort.log2_lt (h : IsShort n) : n.log2 < 53 :=
  (Nat.log2_lt (Nat.ne_of_gt h.pos)).mpr h.lt

theorem IsShort.full (h : IsShort n) : IsFull (wholeMantissa n) := by
  have hlog := h.log2_lt
  have hself : 2 ^ n.log2 ≤ n := Nat.log2_self_le (Nat.ne_of_gt h.pos)
  have hlt : n < 2 ^ (n.log2 + 1) := Nat.lt_log2_self
  constructor
  · calc 2 ^ 52 = 2 ^ n.log2 * 2 ^ (52 - n.log2) := by
          rw [← Nat.pow_add]
          congr 1
          omega
      _ ≤ n * 2 ^ (52 - n.log2) := Nat.mul_le_mul_right _ hself
  · calc n * 2 ^ (52 - n.log2) < 2 ^ (n.log2 + 1) * 2 ^ (52 - n.log2) :=
          Nat.mul_lt_mul_of_pos_right hlt (Nat.two_pow_pos _)
      _ = 2 ^ 53 := by
          rw [← Nat.pow_add]
          congr 1
          omega

/-- The sign of a number. -/
def signOf (negative : Bool) : Sign :=
  if negative then .negative else .positive

/-- The number `± n`, unpacked. -/
def IsShort.unpacked (h : IsShort n) (negative : Bool) : UnpackedFloat :=
  .finite (signOf negative) (wholeMantissa n) ((n.log2 : Int) - 52) h.full.pos

theorem IsShort.unpack_pack (h : IsShort n) (negative : Bool) :
    UnpackedFloat.unpack .binary64 (UnpackedFloat.pack .binary64 (h.unpacked negative)) =
      h.unpacked negative := by
  have hlog := h.log2_lt
  exact unpack_pack_full _ h.full (by omega) (by omega)

theorem IsShort.ofNat_eq (h : IsShort n) : UnpackedFloat.ofNat .binary64 n = h.unpacked false := by
  have hlog := h.log2_lt
  have hpos := h.pos
  have hcompare : compare (n : Int) 0 = .gt := by
    rw [Int.compare_eq_gt]
    omega
  have htarget : Format.binary64.targetExponent (totalExponent n 0) = (n.log2 : Int) - 52 := by
    rw [targetExponent_totalExponent]
    omega
  have hshift : ((0 : Int) - ((n.log2 : Int) - 52)).toNat = 52 - n.log2 := by omega
  have hexponent : (0 : Int) - ((52 - n.log2 : Nat) : Int) =
      (n.log2 : Int) - 52 - ((0 : Nat) : Int) := by omega
  have hmantissa : n * 2 ^ (52 - n.log2) = wholeMantissa n * 2 ^ 0 := by
    rw [Nat.pow_zero, Nat.mul_one]
    rfl
  unfold UnpackedFloat.ofNat UnpackedFloat.ofInt UnpackedFloat.normalize
  rw [hcompare]
  dsimp only
  unfold UnpackedFloat.round UnpackedFloat.decreaseExponent
  rw [Int.toNat_natCast, htarget]
  dsimp only
  rw [hshift, Nat.shiftLeft_eq, hexponent, hmantissa]
  exact roundWithAccuracy_exact .positive h.full (by omega) 0

theorem IsShort.mul_one (h : IsShort n) :
    UnpackedFloat.mul .binary64 (h.unpacked false)
      (.finite .positive (2 ^ 52) (-52) (Nat.two_pow_pos 52)) = h.unpacked false :=
  roundWithAccuracy_exact .positive h.full (by omega) 52

theorem IsShort.toModel_ofNat (h : IsShort n) :
    (Float.ofNat n).toModel = Float.Model.pack (h.unpacked false) := by
  have hlt := h.lt
  have hcast : n.toUInt64.toNat = n := by
    rw [Nat.toUInt64_eq, UInt64.toNat_ofNat', Nat.mod_eq_of_lt (by omega)]
  have hword : n.toUInt64.toFloat.toModel = Float.Model.pack (h.unpacked false) := by
    show Float.Model.pack (UnpackedFloat.ofNat .binary64 n.toUInt64.toNat) = _
    rw [hcast, h.ofNat_eq]
  have hbits : (Float.exactlyRepresentablePowersOfTen[0]).toModel.toBits.toBitVec =
      UnpackedFloat.pack .binary64 (.finite .positive (2 ^ 52) (-52) (Nat.two_pow_pos 52)) := by
    decide +kernel
  have hone : (Float.exactlyRepresentablePowersOfTen[0]).toModel.unpack =
      .finite .positive (2 ^ 52) (-52) (Nat.two_pow_pos 52) := by
    unfold Float.Model.unpack
    rw [hbits]
    exact unpack_pack_full .positive ⟨Nat.le_refl _, by decide⟩ (by decide) (by decide)
  -- A whole number that is small enough is read as a machine word, times a power of ten.
  have hofNat : Float.ofNat n = n.toUInt64.toFloat * Float.exactlyRepresentablePowersOfTen[0] := by
    show Float.ofScientific n false 0 = _
    unfold Float.ofScientific
    rw [dif_pos ⟨hlt, by decide⟩]
    rfl
  rw [hofNat]
  show Float.Model.pack (UnpackedFloat.mul .binary64 n.toUInt64.toFloat.toModel.unpack
    (Float.exactlyRepresentablePowersOfTen[0]).toModel.unpack) = _
  rw [hone, hword]
  show Float.Model.pack (UnpackedFloat.mul .binary64
    (UnpackedFloat.unpack .binary64 (UnpackedFloat.pack .binary64 _)) _) = _
  rw [h.unpack_pack, h.mul_one]

theorem IsShort.toModel_ofWhole (h : IsShort n) (negative : Bool) :
    (ofWhole negative n).toModel = Float.Model.pack (h.unpacked negative) := by
  cases negative with
  | false => exact h.toModel_ofNat
  | true =>
    show Float.Model.pack (Float.ofNat n).toModel.unpack.neg = _
    rw [h.toModel_ofNat]
    show Float.Model.pack
      (UnpackedFloat.unpack .binary64 (UnpackedFloat.pack .binary64 _)).neg = _
    rw [h.unpack_pack]
    rfl

/-! ## The parts of a whole double -/

theorem ofBits_normal (negative : Bool) {biased fraction : Nat} (hlow : 0 < biased)
    (hhigh : biased < 2047) (hfraction : fraction < 2 ^ 52) :
    ofBits ((if negative then 2 ^ 63 else 0) + (biased * 2 ^ 52 + fraction)) =
      .finite negative (2 ^ 52 + fraction) ((biased : Int) - 1075) := by
  have hbiased : ((if negative then 2 ^ 63 else 0) + (biased * 2 ^ 52 + fraction)) / 2 ^ 52 %
      2 ^ 11 = biased := by
    cases negative <;> simp <;> omega
  have hfraction' : ((if negative then 2 ^ 63 else 0) + (biased * 2 ^ 52 + fraction)) % 2 ^ 52 =
      fraction := by
    cases negative <;> simp <;> omega
  have hnegative : decide (2 ^ 63 ≤
      (if negative then 2 ^ 63 else 0) + (biased * 2 ^ 52 + fraction)) = negative := by
    cases negative with
    | false => exact decide_eq_false (by simp; omega)
    | true => exact decide_eq_true (by simp)
  unfold ofBits
  simp only [Nat.pow_eq]
  rw [hbiased, hfraction', hnegative, if_neg (by omega), if_neg (by omega)]

theorem IsShort.toBits_ofWhole (h : IsShort n) (negative : Bool) :
    (ofWhole negative n).toBits.toNat = (if negative then 2 ^ 63 else 0) +
      ((n.log2 + 1023) * 2 ^ 52 + (wholeMantissa n - 2 ^ 52)) := by
  have hlog := h.log2_lt
  have hlow := h.full.low
  have hhigh := h.full.high
  have hsign : (signOf negative).toBitVec.toNat = if negative then 1 else 0 := by
    cases negative <;> rfl
  show ((ofWhole negative n).toModel.toBits.toBitVec).toNat = _
  rw [h.toModel_ofWhole]
  show (UnpackedFloat.pack .binary64 (.finite _ _ _ h.full.pos)).toNat = _
  rw [pack_full _ h.full (by omega)]
  show ((signOf negative).toBitVec ++ BitVec.ofNat 11 ((n.log2 : Int) - 52 + 1075).toNat ++
    BitVec.ofNat 52 (wholeMantissa n)).toNat = _
  rw [BitVec.toNat_append, BitVec.toNat_append, hsign, BitVec.toNat_ofNat, BitVec.toNat_ofNat,
    ← Nat.shiftLeft_add_eq_or_of_lt (Nat.mod_lt _ (Nat.two_pow_pos 52)),
    ← Nat.shiftLeft_add_eq_or_of_lt (Nat.mod_lt _ (Nat.two_pow_pos 11)), Nat.shiftLeft_eq,
    Nat.shiftLeft_eq]
  cases negative <;> simp <;> omega

theorem IsShort.ofFloat_ofWhole (h : IsShort n) (negative : Bool) :
    ofFloat (ofWhole negative n) = .finite negative (wholeMantissa n) ((n.log2 : Int) - 52) := by
  have hlog := h.log2_lt
  have hlow := h.full.low
  have hhigh := h.full.high
  have hmantissa : 2 ^ 52 + (wholeMantissa n - 2 ^ 52) = wholeMantissa n := by omega
  have hexponent : ((n.log2 + 1023 : Nat) : Int) - 1075 = n.log2 - 52 := by omega
  refine (congrArg ofBits (h.toBits_ofWhole negative)).trans
    ((ofBits_normal negative (by omega) (by omega) (by omega)).trans ?_)
  rw [hmantissa, hexponent]

theorem ofFloat_lt {x : Float} {negative : Bool} {mantissa : Nat} {exponent : Int}
    (h : ofFloat x = .finite negative mantissa exponent) : mantissa < 2 ^ 53 := by
  unfold ofFloat ofBits at h
  simp only [Nat.pow_eq] at h
  split at h
  · split at h <;> cases h
  · split at h
    · cases h
      omega
    · cases h
      omega

/-! ## Rounding down -/

theorem floor_ofWhole (negative : Bool) (hn : n < 2 ^ 53) :
    floor (ofWhole negative n) = ofWhole negative n := by
  rcases Nat.eq_zero_or_pos n with rfl | hpos
  · cases negative <;> decide +kernel
  · have hshort : IsShort n := ⟨hpos, hn⟩
    have hlog := hshort.log2_lt
    unfold floor
    rw [hshort.ofFloat_ofWhole]
    by_cases hall : n.log2 = 52
    · -- Nothing of the mantissa stands for a fraction.
      rw [hall]
      rfl
    · have hexponent : (n.log2 : Int) - 52 = .negSucc (51 - n.log2) := by omega
      have hunit : 51 - n.log2 + 1 = 52 - n.log2 := by omega
      rw [hexponent]
      dsimp only
      rw [hunit, Nat.pow_eq]
      unfold wholeMantissa
      rw [Nat.mul_div_cancel _ (Nat.two_pow_pos _), Nat.mul_mod_left]
      cases negative <;> rfl

theorem floor_cases (x : Float) :
    floor x = x ∨ ∃ negative n, n < 2 ^ 53 ∧ floor x = ofWhole negative n := by
  unfold floor
  split
  · rename_i negative mantissa shift hparts
    have hmantissa := ofFloat_lt hparts
    have hunit : 2 ^ 1 ≤ 2 ^ (shift + 1) := Nat.pow_le_pow_right (by decide) (by omega)
    have hwhole : mantissa / Nat.pow 2 (shift + 1) ≤ mantissa / 2 :=
      Nat.div_le_div_left hunit (by decide)
    refine .inr ⟨negative, _, ?_, rfl⟩
    split <;> omega
  · exact .inl rfl

/-- **A double that has been rounded down stays as it is.** -/
theorem floor_floor (x : Float) : Scalar.floor (Scalar.floor x) = Scalar.floor x := by
  show floor (floor x) = floor x
  rcases floor_cases x with hsame | ⟨negative, n, hn, hwhole⟩
  · rw [hsame, hsame]
  · rw [hwhole, floor_ofWhole negative hn]

end Binary64

end ComputedCss
