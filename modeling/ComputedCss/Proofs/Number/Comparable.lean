import Mathlib.Tactic.SplitIfs
import ComputedCss.Number.Double

/-!
# Doubles that can be compared

A double equals itself unless it is no number, and no numeral stands for such a double: it is put
together by products and quotients of numbers, or it lies out of range.

* `unpack_pack_ne_notANumber`: packing a number gives a number.
* `mul_ne_notANumber`, `div_ne_notANumber`: so does rounding a product or a quotient.
* `ofNumeral_beq_self`: the double of a numeral equals itself.
-/

namespace ComputedCss

namespace Binary64

open Float.Model
open Float.Model.UnpackedFloat (Sign)

variable {u v : UnpackedFloat}

theorem compare_self (h : u ≠ .notANumber) : u.compare u = some .eq := by
  cases u with
  | notANumber => exact absurd rfl h
  | infinity sign => cases sign <;> rfl
  | zero sign => rfl
  | finite sign m e hm =>
    cases sign with
    | negative =>
      show some ((compare e e).then (compare m m)).swap = some .eq
      simp
    | positive =>
      show some ((compare e e).then (compare m m)) = some .eq
      simp

/-! ## Packing -/

section

variable {p : Prop} [Decidable p]

theorem ite_ne_notANumber (hu : p → u ≠ .notANumber) (hv : ¬p → v ≠ .notANumber) :
    (if p then u else v) ≠ .notANumber := by
  by_cases h : p
  · rw [if_pos h]
    exact hu h
  · rw [if_neg h]
    exact hv h

theorem dite_ne_notANumber {u : p → UnpackedFloat} {v : ¬p → UnpackedFloat}
    (hu : ∀ h, u h ≠ .notANumber) (hv : ∀ h, v h ≠ .notANumber) :
    (if h : p then u h else v h) ≠ .notANumber := by
  by_cases h : p
  · rw [dif_pos h]
    exact hu h
  · rw [dif_neg h]
    exact hv h

end

theorem unpack_ne_notANumber {bits : BitVec Format.binary64.numBits}
    (h : UnpackedFloat.unpackExponent bits = -1#_ → UnpackedFloat.unpackMantissa bits = 0#_) :
    UnpackedFloat.unpack .binary64 bits ≠ .notANumber := by
  unfold UnpackedFloat.unpack
  dsimp only
  refine ite_ne_notANumber (fun hexponent => ?_) fun _ => ite_ne_notANumber (fun _ => ?_) fun _ => ?_
  · exact ite_ne_notANumber (fun _ => nofun) fun hmantissa => absurd (h hexponent) hmantissa
  · exact dite_ne_notANumber (fun _ => nofun) fun _ => nofun
  · nofun

theorem unpack_packComponents_ne {sign : Sign} {exponent : BitVec Format.binary64.exponentBits}
    {mantissa : BitVec Format.binary64.mantissaBitsWithoutImplicit}
    (h : exponent = -1#_ → mantissa = 0#_) :
    UnpackedFloat.unpack .binary64 (UnpackedFloat.packComponents .binary64 sign exponent mantissa) ≠
      .notANumber := by
  apply unpack_ne_notANumber
  rw [UnpackedFloat.unpackExponent_packComponents, UnpackedFloat.unpackMantissa_packComponents]
  exact h

theorem unpack_pack_ne_notANumber (h : u ≠ .notANumber) :
    UnpackedFloat.unpack .binary64 (UnpackedFloat.pack .binary64 u) ≠ .notANumber := by
  cases u with
  | notANumber => exact absurd rfl h
  | infinity sign => exact unpack_packComponents_ne fun _ => rfl
  | zero sign => exact unpack_packComponents_ne fun _ => rfl
  | finite sign m e hm =>
    unfold UnpackedFloat.pack
    dsimp only
    split_ifs with hgreat hnormal
    · exact unpack_packComponents_ne fun _ => rfl
    · -- The exponent is less than the greatest.
      refine unpack_packComponents_ne fun hexponent => absurd (congrArg BitVec.toNat hexponent) ?_
      change ¬2 ^ 11 ≤ _ at hgreat
      rw [BitVec.toNat_ofNat, Nat.mod_eq_of_lt (show _ < 2 ^ 11 by omega)]
      show ¬_ = 2047
      omega
    · exact unpack_packComponents_ne fun hexponent => absurd hexponent (by decide)

/-- The double is packed from a number. -/
def IsPacked (x : Float) : Prop :=
  ∃ u, x.toModel = Float.Model.pack u ∧ u ≠ .notANumber

theorem IsPacked.unpack_ne_notANumber {x : Float} (h : IsPacked x) :
    x.toModel.unpack ≠ .notANumber := by
  obtain ⟨u, hx, hu⟩ := h
  rw [hx]
  exact unpack_pack_ne_notANumber hu

theorem IsPacked.beq_self {x : Float} (h : IsPacked x) : (x == x) = true := by
  show (x.toModel.unpack.compare x.toModel.unpack == some .eq) = true
  rw [compare_self h.unpack_ne_notANumber]
  rfl

theorem IsPacked.isNaN_eq_false {x : Float} (h : IsPacked x) : x.isNaN = false := by
  show x.toModel.unpack.isNaN = false
  cases hx : x.toModel.unpack with
  | notANumber => exact absurd hx h.unpack_ne_notANumber
  | _ => rfl

/-! ## Arithmetic -/

theorem roundWithAccuracy_ne_notANumber (sign : Sign) (m : Nat) (e : Int)
    (accuracy : UnpackedFloat.Accuracy) :
    UnpackedFloat.roundWithAccuracy .binary64 sign m e accuracy ≠ .notANumber := by
  unfold UnpackedFloat.roundWithAccuracy
  dsimp only
  exact dite_ne_notANumber (fun _ => nofun) fun _ => nofun

theorem round_ne_notANumber (sign : Sign) (m : Nat) (e : Int) :
    UnpackedFloat.round .binary64 sign m e ≠ .notANumber :=
  roundWithAccuracy_ne_notANumber sign _ _ .exact

/-- Whether a number is neither zero nor infinite. -/
def isProper : UnpackedFloat → Bool
  | .finite _ _ _ _ => true
  | _ => false

theorem mul_ne_notANumber (hu : u ≠ .notANumber) (hv : isProper v = true) :
    UnpackedFloat.mul .binary64 u v ≠ .notANumber := by
  cases v with
  | finite sign m e hm =>
    cases u with
    | notANumber => exact absurd rfl hu
    | infinity | zero => nofun
    | finite => exact roundWithAccuracy_ne_notANumber _ _ _ _
  | _ => exact absurd hv Bool.false_ne_true

theorem div_ne_notANumber (hu : u ≠ .notANumber) (hv : isProper v = true) :
    UnpackedFloat.div .binary64 u v ≠ .notANumber := by
  cases v with
  | finite sign m e hm =>
    cases u with
    | notANumber => exact absurd rfl hu
    | infinity | zero => nofun
    | finite => exact roundWithAccuracy_ne_notANumber _ _ _ _
  | _ => exact absurd hv Bool.false_ne_true

theorem neg_ne_notANumber (h : u ≠ .notANumber) : u.neg ≠ .notANumber := by
  cases u with
  | notANumber => exact absurd rfl h
  | _ => nofun

/-! ## Numerals -/

theorem ofNat_ne_notANumber (n : Nat) : UnpackedFloat.ofNat .binary64 n ≠ .notANumber := by
  unfold UnpackedFloat.ofNat UnpackedFloat.ofInt UnpackedFloat.normalize
  split
  · exact round_ne_notANumber _ _ _
  · nofun
  · exact round_ne_notANumber _ _ _

theorem ofScientific_ne_notANumber (m : Nat) (e : Int) :
    UnpackedFloat.ofScientific .binary64 m e ≠ .notANumber := by
  unfold UnpackedFloat.ofScientific
  refine dite_ne_notANumber (fun _ => nofun) fun _ => ?_
  refine ite_ne_notANumber (fun _ => nofun) fun _ => ?_
  refine ite_ne_notANumber (fun _ => nofun) fun _ => ?_
  exact ite_ne_notANumber (fun _ => mul_ne_notANumber nofun rfl) fun _ => div_ne_notANumber nofun rfl

theorem isProper_powerOfTen {e : Nat} (he : e < Float.exactlyRepresentablePowersOfTen.size) :
    isProper Float.exactlyRepresentablePowersOfTen[e].toModel.unpack = true := by
  have hall : Float.exactlyRepresentablePowersOfTen.all (isProper ·.toModel.unpack) = true := by
    decide +kernel
  exact Array.all_eq_true.mp hall e he

theorem isPacked_neg {x : Float} (h : IsPacked x) : IsPacked (-x) :=
  ⟨_, rfl, neg_ne_notANumber h.unpack_ne_notANumber⟩

theorem isPacked_ofScientific (m : Nat) (negative : Bool) (e : Nat) :
    IsPacked (Float.ofScientific m negative e) := by
  unfold Float.ofScientific
  split
  · rename_i h
    have hm : m.toUInt64.toFloat.toModel.unpack ≠ .notANumber :=
      unpack_pack_ne_notANumber (ofNat_ne_notANumber _)
    have he := isProper_powerOfTen (Nat.lt_of_le_of_lt h.2 (by decide))
    dsimp only
    split
    · exact ⟨_, rfl, div_ne_notANumber hm he⟩
    · exact ⟨_, rfl, mul_ne_notANumber hm he⟩
  · exact ⟨_, rfl, ofScientific_ne_notANumber m _⟩

theorem isPacked_ofNumeral (n : Numeral) : IsPacked (ofNumeral n) := by
  have hzero : IsPacked 0.0 := isPacked_ofScientific 0 true 1
  have hinfinity : IsPacked (1.0 / 0.0) := ⟨.infinity .positive, by with_unfolding_all rfl, by simp⟩
  have hsigned : ∀ magnitude : Float, IsPacked magnitude →
      IsPacked (if n.negative then -magnitude else magnitude) := by
    intro magnitude h
    split_ifs
    · exact isPacked_neg h
    · exact h
  unfold ofNumeral
  apply hsigned
  split_ifs
  · exact hzero
  · exact hinfinity
  · exact hzero
  · exact isPacked_ofScientific _ _ _

/-- **The double of a numeral equals itself.** -/
theorem ofNumeral_beq_self (n : Numeral) :
    ((Scalar.ofNumeral n : Float) == Scalar.ofNumeral n) = true :=
  (isPacked_ofNumeral n).beq_self

end Binary64

end ComputedCss
