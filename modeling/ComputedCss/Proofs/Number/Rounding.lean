import Mathlib.Algebra.Order.Field.Power
import Mathlib.Algebra.Order.Field.Rat
import Mathlib.Tactic.FieldSimp
import Mathlib.Tactic.Linarith
import Mathlib.Tactic.NormNum
import Mathlib.Tactic.Positivity
import Mathlib.Tactic.Ring
import ComputedCss.Proofs.Number.Whole

/-!
# Sums and quotients of doubles

A sum or a quotient of doubles is computed with two residual bits, which say where the exact value
lies between two mantissas. This is enough to round to the nearest mantissa, and to the even one of
two that are equally near.

* `Locates`: what the residual bits say.
* `Rounds`: a mantissa and an exponent that are nearest to a value.
* `exists_roundWithAccuracy`: rounding finds them.
* `exists_add`, `exists_div`: so do sums and quotients.
-/

namespace ComputedCss

namespace Binary64

open Float.Model
open Float.Model.UnpackedFloat (Sign ExtendedMantissa Accuracy)

/-! ## Residual bits -/

/-- The mantissa, the round bit and the sticky bit say where `x` lies: what is left after a half is
less than another half, and the sticky bit tells whether it is nothing. -/
def Locates (em : ExtendedMantissa) (x : Rat) : Prop :=
  ∃ rest : Rat, x = em.mantissa + (if em.roundBit then 1 / 2 else 0) + rest ∧
    0 ≤ rest ∧ rest < 1 / 2 ∧ (em.stickyBit = true ↔ 0 < rest)

/-- The whole number is the nearest one, and even when another is as near. -/
structure IsNearest (n : Nat) (x : Rat) : Prop where
  near : |(n : Rat) - x| ≤ 1 / 2
  even : |(n : Rat) - x| = 1 / 2 → n % 2 = 0

variable {em : ExtendedMantissa} {x : Rat}

theorem Locates.bounds (h : Locates em x) : (em.mantissa : Rat) ≤ x ∧ x < em.mantissa + 1 := by
  obtain ⟨rest, rfl, hlow, hhigh, -⟩ := h
  split_ifs <;> constructor <;> linarith

theorem locates_exact (m : Nat) : Locates ⟨m, false, false⟩ m :=
  ⟨0, by simp, le_rfl, by norm_num, by simp⟩

theorem Locates.shiftRightOne (h : Locates em x) : Locates em.shiftRightOne (x / 2) := by
  obtain ⟨m, roundBit, stickyBit⟩ := em
  obtain ⟨rest, rfl, hlow, hhigh, hsticky⟩ := h
  dsimp only at hsticky
  have hm : (m : Rat) = 2 * (m / 2 : Nat) + (m % 2 : Nat) := by
    exact_mod_cast (Nat.div_add_mod m 2).symm
  have hbit : (if (m % 2 != 0) = true then (1 : Rat) / 2 else 0) = ((m % 2 : Nat) : Rat) / 2 := by
    rcases Nat.mod_two_eq_zero_or_one m with hmod | hmod <;> simp [hmod]
  refine ⟨((if roundBit = true then 1 / 2 else 0) + rest) / 2, ?_, ?_, ?_, ?_⟩
  · show _ = ((m / 2 : Nat) : Rat) + (if (m % 2 != 0) = true then 1 / 2 else 0) + _
    rw [hbit, hm]
    push_cast
    ring
  · split_ifs <;> linarith
  · split_ifs <;> linarith
  · show (roundBit || stickyBit) = true ↔ _
    cases roundBit with
    | true => simpa using by linarith
    | false => simpa using hsticky

theorem Locates.shiftRight (h : Locates em x) (k : Nat) :
    Locates (em >>> k) (x / 2 ^ k) := by
  show Locates (k.repeat ExtendedMantissa.shiftRightOne em) _
  induction k with
  | zero => simpa [Nat.repeat] using h
  | succ k ih =>
    rw [Nat.repeat, pow_succ, ← div_div]
    exact ih.shiftRightOne

theorem isNearest_of_lt {n : Nat} (h : |(n : Rat) - x| < 1 / 2) : IsNearest n x :=
  ⟨h.le, fun heq => absurd heq h.ne⟩

theorem IsNearest.eq_of_even {n k : Nat} (h : IsNearest n x) (hk : k % 2 = 0)
    (hlow : (k : Rat) - 1 / 2 ≤ x) (hhigh : x ≤ k) : n = k := by
  obtain ⟨hbelow, habove⟩ := abs_le.mp h.near
  have hupper : (n : Rat) < (k + 1 : Nat) := by
    push_cast
    linarith
  have hlower : (k : Rat) ≤ (n + 1 : Nat) := by
    push_cast
    linarith
  rw [Nat.cast_lt] at hupper
  rw [Nat.cast_le] at hlower
  by_contra hne
  -- The number before is as near at best, and it is odd.
  obtain rfl : k = n + 1 := by omega
  push_cast at hlow
  have hdistance : |(n : Rat) - x| = 1 / 2 := by
    rw [abs_of_nonpos (by linarith)]
    linarith
  have heven := h.even hdistance
  omega

theorem Locates.isNearest (h : Locates em x) : IsNearest em.roundedMantissa x := by
  obtain ⟨m, roundBit, stickyBit⟩ := em
  obtain ⟨rest, rfl, hlow, hhigh, hsticky⟩ := h
  cases roundBit <;> cases stickyBit
  case false.false =>
    have hrest : rest = 0 :=
      le_antisymm (not_lt.mp fun hpos => by simpa using hsticky.mpr hpos) hlow
    refine isNearest_of_lt ?_
    show |(m : Rat) - (m + 0 + rest)| < 1 / 2
    rw [hrest, add_zero, add_zero, sub_self, abs_zero]
    norm_num
  case false.true =>
    refine isNearest_of_lt ?_
    show |(m : Rat) - (m + 0 + rest)| < 1 / 2
    rw [abs_lt]
    constructor <;> linarith
  case true.false =>
    have hrest : rest = 0 :=
      le_antisymm (not_lt.mp fun hpos => by simpa using hsticky.mpr hpos) hlow
    -- Halfway between two mantissas the even one is taken.
    have heven : (m + m % 2) % 2 = 0 := by omega
    refine ⟨?_, fun _ => heven⟩
    show |((m + m % 2 : Nat) : Rat) - (m + 1 / 2 + rest)| ≤ 1 / 2
    rw [hrest, abs_le]
    rcases Nat.mod_two_eq_zero_or_one m with hmod | hmod <;> rw [hmod] <;> push_cast <;>
      constructor <;> linarith
  case true.true =>
    have hrest : 0 < rest := hsticky.mp rfl
    refine isNearest_of_lt ?_
    show |((m + 1 : Nat) : Rat) - (m + 1 / 2 + rest)| < 1 / 2
    rw [abs_lt]
    push_cast
    constructor <;> linarith

/-! ## Rounding to 53 bits -/

/-- The mantissa and the exponent are nearest to a value that is not negative. The exponent is the
one at which the value has 53 bits, or the least. -/
structure Rounds (x : Rat) (n : Nat) (e : Int) : Prop where
  least : -1074 ≤ e
  high : x < 2 ^ (e + 53)
  full : e = -1074 ∨ 2 ^ (e + 52) ≤ x
  nearest : IsNearest n (x / 2 ^ e)

/-- A rounded mantissa with its exponent, as a number. A mantissa that has become too long by
rounding is a power of two. -/
def rounded (sign : Sign) (n : Nat) (e : Int) : UnpackedFloat :=
  if n = 2 ^ 53 then .finite sign (2 ^ 52) (e + 1) (Nat.two_pow_pos 52)
  else if h : n = 0 then .zero sign
  else .finite sign n e (Nat.pos_of_ne_zero h)

theorem two_zpow_pos (e : Int) : (0 : Rat) < 2 ^ e := zpow_pos two_pos e

theorem scaled_nonneg (m : Nat) (e : Int) : (0 : Rat) ≤ m * 2 ^ e :=
  mul_nonneg (Nat.cast_nonneg m) (two_zpow_pos e).le

theorem scaled_pos {m : Nat} (hm : 0 < m) (e : Int) : (0 : Rat) < m * 2 ^ e :=
  mul_pos (Nat.cast_pos.mpr hm) (two_zpow_pos e)

theorem two_zpow_add (d e : Int) : (2 : Rat) ^ (d + e) = 2 ^ d * 2 ^ e := zpow_add₀ two_ne_zero d e

theorem shifted_value (m k : Nat) (e : Int) :
    ((m * 2 ^ k : Nat) : Rat) * 2 ^ (e - k) = m * 2 ^ e := by
  push_cast
  rw [mul_assoc, ← zpow_natCast, ← two_zpow_add]
  congr 2
  omega

theorem aligned_value (m : Nat) {e least : Int} (h : least ≤ e) :
    ((m * 2 ^ (e - least).toNat : Nat) : Rat) * 2 ^ least = m * 2 ^ e := by
  have hshifted := shifted_value m (e - least).toNat e
  rwa [show e - ((e - least).toNat : Int) = least by omega] at hshifted

theorem Rounds.mantissa_le {n : Nat} {e : Int} (h : Rounds x n e) : n ≤ 2 ^ 53 := by
  have hscaled : x / 2 ^ e < 2 ^ 53 := by
    rw [div_lt_iff₀ (two_zpow_pos e)]
    have hhigh := h.high
    rw [add_comm, two_zpow_add] at hhigh
    exact_mod_cast hhigh
  have hnear := (abs_le.mp h.nearest.near).2
  have hlt : (n : Rat) < (2 ^ 53 + 1 : Nat) := by
    push_cast
    linarith
  exact Nat.lt_succ_iff.mp (by exact_mod_cast hlt)

theorem shiftToTargetExponent_short {n : Nat} {e : Int} (hn : n < 2 ^ 53) (he : -1074 ≤ e) :
    UnpackedFloat.shiftToTargetExponent .binary64 n e .exact = (⟨n, false, false⟩, e) := by
  have hlog : n.log2 < 53 := by
    rcases Nat.eq_zero_or_pos n with rfl | hpos
    · simp
    · exact (Nat.log2_lt hpos.ne').mpr hn
  have hshift : (max ((n.log2 : Int) + 1 + e - 53) (-1074) - e).toNat = 0 := by omega
  unfold UnpackedFloat.shiftToTargetExponent UnpackedFloat.shiftToExponent
  rw [targetExponent_totalExponent]
  dsimp only
  rw [hshift]
  exact Prod.ext rfl (by simp)

theorem shiftToTargetExponent_power {e : Int} (he : -1074 ≤ e) :
    UnpackedFloat.shiftToTargetExponent .binary64 (2 ^ 53) e .exact =
      (⟨2 ^ 52, false, false⟩, e + 1) := by
  have hshift : (max (((2 ^ 53 : Nat).log2 : Int) + 1 + e - 53) (-1074) - e).toNat = 1 := by
    rw [Nat.log2_two_pow]
    omega
  unfold UnpackedFloat.shiftToTargetExponent UnpackedFloat.shiftToExponent
  rw [targetExponent_totalExponent]
  dsimp only
  rw [hshift]
  rfl

@[simp] theorem mantissa_ofMantissaAndAccuracy (m : Nat) (accuracy : Accuracy) :
    (ExtendedMantissa.ofMantissaAndAccuracy m accuracy).mantissa = m := by
  cases accuracy with
  | exact => rfl
  | inexact order => cases order <;> rfl

/-- The exponent that rounding chooses is the one at which the value has 53 bits, or the least. -/
theorem rounds_of_isNearest {m n k : Nat} {e E : Int} (hx : (m : Rat) ≤ x ∧ x < m + 1)
    (hE : E = max ((m.log2 : Int) + 1 + e - 53) (-1074)) (hk : E = e + k)
    (hn : IsNearest n (x / 2 ^ k)) : Rounds (x * 2 ^ e) n E := by
  have hscale : x * 2 ^ e / 2 ^ E = x / 2 ^ k := by
    rw [hk, two_zpow_add, zpow_natCast]
    field_simp
  have hbelow : x < 2 ^ ((m.log2 : Int) + 1) := by
    have hnat : m + 1 ≤ 2 ^ (m.log2 + 1) := Nat.lt_log2_self
    have hrat : ((m + 1 : Nat) : Rat) ≤ ((2 ^ (m.log2 + 1) : Nat) : Rat) := by exact_mod_cast hnat
    push_cast at hrat
    calc x < m + 1 := hx.2
      _ ≤ 2 ^ (m.log2 + 1) := hrat
      _ = 2 ^ ((m.log2 : Int) + 1) := by rw [← zpow_natCast]; rfl
  refine ⟨by omega, ?_, ?_, hscale ▸ hn⟩
  · calc x * 2 ^ e < 2 ^ ((m.log2 : Int) + 1) * 2 ^ e :=
        mul_lt_mul_of_pos_right hbelow (two_zpow_pos e)
      _ = 2 ^ ((m.log2 : Int) + 1 + e) := (two_zpow_add _ _).symm
      _ ≤ 2 ^ (E + 53) := zpow_le_zpow_right₀ one_le_two (by omega)
  · by_cases hleast : E = -1074
    · exact .inl hleast
    · have hne : m ≠ 0 := by
        rintro rfl
        simp at hE
        omega
      have hself : ((2 ^ m.log2 : Nat) : Rat) ≤ m := by exact_mod_cast Nat.log2_self_le hne
      push_cast at hself
      refine .inr ?_
      calc (2 : Rat) ^ (E + 52) = 2 ^ ((m.log2 : Int) + e) := by
            congr 1
            omega
        _ = 2 ^ m.log2 * 2 ^ e := by rw [two_zpow_add, zpow_natCast]
        _ ≤ x * 2 ^ e := mul_le_mul_of_nonneg_right (hself.trans hx.1) (two_zpow_pos e).le

/-- **Rounding finds the nearest mantissa and exponent.** What is to be rounded has at least 53
bits, or an exponent that is small enough. -/
theorem exists_roundWithAccuracy (sign : Sign) {m : Nat} {e : Int} {accuracy : Accuracy}
    (hx : Locates (.ofMantissaAndAccuracy m accuracy) x)
    (he : e ≤ max ((m.log2 : Int) + 1 + e - 53) (-1074)) :
    ∃ n E, Rounds (x * 2 ^ e) n E ∧
      UnpackedFloat.roundWithAccuracy .binary64 sign m e accuracy = rounded sign n E := by
  obtain ⟨k, hk⟩ : ∃ k : Nat, max ((m.log2 : Int) + 1 + e - 53) (-1074) = e + k :=
    ⟨(max ((m.log2 : Int) + 1 + e - 53) (-1074) - e).toNat, by omega⟩
  have hshift : UnpackedFloat.shiftToTargetExponent .binary64 m e accuracy =
      (ExtendedMantissa.ofMantissaAndAccuracy m accuracy >>> k, e + k) := by
    unfold UnpackedFloat.shiftToTargetExponent UnpackedFloat.shiftToExponent
    rw [targetExponent_totalExponent, hk]
    dsimp only
    rw [show (e + (k : Int) - e).toNat = k by omega]
  have hbounds := hx.bounds
  rw [mantissa_ofMantissaAndAccuracy] at hbounds
  have hrounds : Rounds (x * 2 ^ e) _ (e + k) :=
    rounds_of_isNearest hbounds hk.symm rfl (hx.shiftRight k).isNearest
  refine ⟨_, _, hrounds, ?_⟩
  have hle := hrounds.mantissa_le
  have hleast := hrounds.least
  unfold UnpackedFloat.roundWithAccuracy
  rw [hshift]
  dsimp only
  generalize (ExtendedMantissa.ofMantissaAndAccuracy m accuracy >>> k).roundedMantissa = n at hle ⊢
  rw [rounded]
  by_cases hpower : n = 2 ^ 53
  · rw [hpower, shiftToTargetExponent_power hleast, if_pos rfl]
    exact dif_neg (Nat.two_pow_pos 52).ne'
  · rw [shiftToTargetExponent_short (by omega) hleast, if_neg hpower]

/-! ## Sums -/

theorem log2_mul_two_pow {m : Nat} (hm : 0 < m) (k : Nat) : (m * 2 ^ k).log2 = m.log2 + k := by
  apply log2_eq
  · rw [Nat.pow_add]
    exact Nat.mul_le_mul_right _ (Nat.log2_self_le hm.ne')
  · rw [show m.log2 + k + 1 = m.log2 + 1 + k by omega, Nat.pow_add]
    exact Nat.mul_lt_mul_of_pos_right Nat.lt_log2_self (Nat.two_pow_pos k)

theorem exists_round (sign : Sign) {m : Nat} (hm : 0 < m) (e : Int) :
    ∃ n E, Rounds (m * 2 ^ e) n E ∧
      UnpackedFloat.round .binary64 sign m e = rounded sign n E := by
  obtain ⟨k, hk⟩ : ∃ k, (e - max ((m.log2 : Int) + 1 + e - 53) (-1074)).toNat = k := ⟨_, rfl⟩
  have hlog : ((m * 2 ^ k).log2 : Int) = m.log2 + k := by exact_mod_cast log2_mul_two_pow hm k
  rw [← shifted_value m k e]
  unfold UnpackedFloat.round UnpackedFloat.decreaseExponent
  rw [targetExponent_totalExponent]
  dsimp only
  rw [hk, Nat.shiftLeft_eq]
  exact exists_roundWithAccuracy sign (locates_exact _) (by omega)

theorem exists_normalize {m : Int} (hm : 0 < m) (e : Int) (zeroSign : Sign) :
    ∃ n E, Rounds (m * 2 ^ e) n E ∧
      UnpackedFloat.normalize .binary64 m e zeroSign = rounded .positive n E := by
  lift m to Nat using hm.le
  have hcompare : compare (m : Int) 0 = .gt := Int.compare_eq_gt.mpr hm
  unfold UnpackedFloat.normalize
  rw [hcompare]
  exact exists_round .positive (Int.natCast_pos.mp hm) e

theorem decreaseExponent_mantissa {m : Nat} {e least : Int} (h : least ≤ e) :
    ((UnpackedFloat.decreaseExponent m e least).1 : Rat) * 2 ^ least = m * 2 ^ e := by
  show ((m <<< (e - least).toNat : Nat) : Rat) * 2 ^ least = m * 2 ^ e
  rw [Nat.shiftLeft_eq, aligned_value m h]

theorem apply_mul_congr (sign : Sign) {m m' : Nat} {a b : Rat} (h : (m : Rat) * a = m' * b) :
    (sign.apply m : Rat) * a = (sign.apply m' : Rat) * b := by
  cases sign with
  | positive =>
    show (((m : Int) : Rat)) * a = ((m' : Int) : Rat) * b
    exact_mod_cast h
  | negative =>
    show ((-(m : Int) : Int) : Rat) * a = ((-(m' : Int) : Int) : Rat) * b
    push_cast
    linarith

/-- **A positive sum is rounded to the nearest number.** -/
theorem exists_add {s₁ s₂ : Sign} {m₁ m₂ : Nat} {e₁ e₂ : Int} (h₁ : 0 < m₁) (h₂ : 0 < m₂)
    (hx : (s₁.apply m₁ : Rat) * 2 ^ e₁ + (s₂.apply m₂ : Rat) * 2 ^ e₂ = x) (hpos : 0 < x) :
    ∃ n E, Rounds x n E ∧
      UnpackedFloat.add .binary64 (.finite s₁ m₁ e₁ h₁) (.finite s₂ m₂ e₂ h₂) =
        rounded .positive n E := by
  have hleft := decreaseExponent_mantissa (m := m₁) (min_le_left e₁ e₂)
  have hright := decreaseExponent_mantissa (m := m₂) (min_le_right e₁ e₂)
  generalize hm₁' : (UnpackedFloat.decreaseExponent m₁ e₁ (min e₁ e₂)).1 = m₁' at hleft
  generalize hm₂' : (UnpackedFloat.decreaseExponent m₂ e₂ (min e₁ e₂)).1 = m₂' at hright
  have hsum : ((s₁.apply m₁' + s₂.apply m₂' : Int) : Rat) * 2 ^ min e₁ e₂ = x := by
    rw [← hx, ← apply_mul_congr s₁ hleft, ← apply_mul_congr s₂ hright]
    push_cast
    ring
  have hmantissa : 0 < s₁.apply m₁' + s₂.apply m₂' := by
    rw [← hsum] at hpos
    exact_mod_cast pos_of_mul_pos_left hpos (two_zpow_pos _).le
  obtain ⟨n, E, hrounds, hround⟩ := exists_normalize hmantissa (min e₁ e₂) .positive
  rw [hsum] at hrounds
  refine ⟨n, E, hrounds, ?_⟩
  unfold UnpackedFloat.add
  rw [← hround, ← hm₁', ← hm₂']

/-! ## Quotients -/

theorem locates_quotient (m : Nat) {d : Nat} (hd : 0 < d) :
    Locates (.ofMantissaAndAccuracy (m / d) (UnpackedFloat.accuracyOfFraction (m % d) d))
      (m / d) := by
  have hd' : (0 : Rat) < d := by exact_mod_cast hd
  have hdiv : (m : Rat) / d = (m / d : Nat) + ((m % d : Nat) : Rat) / d := by
    rw [eq_comm, ← sub_eq_zero]
    have hnat : (m : Rat) = d * (m / d : Nat) + (m % d : Nat) := by
      exact_mod_cast (Nat.div_add_mod m d).symm
    field_simp
    linarith
  have hlt : ((m % d : Nat) : Rat) < d := by exact_mod_cast Nat.mod_lt m hd
  rw [hdiv]
  generalize m / d = q
  generalize m % d = r at hlt ⊢
  unfold UnpackedFloat.accuracyOfFraction
  by_cases hzero : r = 0
  · rw [if_pos hzero, hzero, Nat.cast_zero, zero_div, add_zero]
    exact locates_exact q
  · have hpos : (0 : Rat) < (r : Rat) / d :=
      div_pos (by exact_mod_cast Nat.pos_of_ne_zero hzero) hd'
    rw [if_neg hzero]
    -- The remainder against half the divisor tells the side of the middle, and the middle itself.
    cases hcompare : compare (2 * r) d with
    | lt =>
      have hless : (2 : Rat) * r < d := by exact_mod_cast Nat.compare_eq_lt.mp hcompare
      have hhalf : (r : Rat) / d < 1 / 2 := by
        rw [div_lt_iff₀ hd']
        linarith
      show Locates ⟨q, false, true⟩ _
      exact ⟨(r : Rat) / d, by simp, hpos.le, hhalf, by simpa using hpos⟩
    | eq =>
      have hsame : (2 : Rat) * r = d := by exact_mod_cast Nat.compare_eq_eq.mp hcompare
      have hhalf : (r : Rat) / d = 1 / 2 := by
        rw [div_eq_iff hd'.ne']
        linarith
      show Locates ⟨q, true, false⟩ _
      exact ⟨0, by simp [hhalf], le_rfl, by norm_num, by simp⟩
    | gt =>
      have hmore : (d : Rat) < 2 * r := by exact_mod_cast Nat.compare_eq_gt.mp hcompare
      have hhalf : 1 / 2 < (r : Rat) / d := by
        rw [lt_div_iff₀ hd']
        linarith
      have hone : (r : Rat) / d < 1 := (div_lt_one hd').mpr hlt
      show Locates ⟨q, true, true⟩ _
      refine ⟨(r : Rat) / d - 1 / 2, ?_, by linarith, by linarith, by simpa using hhalf⟩
      dsimp only
      rw [if_pos rfl]
      ring

theorem le_div_shift {m d k : Nat} (hm : 0 < m) (hd : 0 < d) (hk : 53 + d.log2 ≤ m.log2 + k) :
    52 ≤ (m * 2 ^ k / d).log2 := by
  have hself : 2 ^ m.log2 ≤ m := Nat.log2_self_le hm.ne'
  have hdlt : d < 2 ^ (d.log2 + 1) := Nat.lt_log2_self
  have hle : 2 ^ 52 ≤ m * 2 ^ k / d := by
    rw [Nat.le_div_iff_mul_le hd]
    calc 2 ^ 52 * d ≤ 2 ^ 52 * 2 ^ (d.log2 + 1) := Nat.mul_le_mul_left _ hdlt.le
      _ = 2 ^ (53 + d.log2) := by
        rw [← Nat.pow_add]
        congr 1
        omega
      _ ≤ 2 ^ (m.log2 + k) := Nat.pow_le_pow_right (by decide) hk
      _ = 2 ^ m.log2 * 2 ^ k := Nat.pow_add _ _ _
      _ ≤ m * 2 ^ k := Nat.mul_le_mul_right _ hself
  exact (Nat.le_log2 (by omega)).mpr hle

/-- **A quotient is rounded to the nearest number.** -/
theorem exists_div (s₁ s₂ : Sign) {m₁ m₂ : Nat} (e₁ e₂ : Int) (h₁ : 0 < m₁) (h₂ : 0 < m₂) :
    ∃ n E, Rounds (m₁ * 2 ^ e₁ / (m₂ * 2 ^ e₂)) n E ∧
      UnpackedFloat.div .binary64 (.finite s₁ m₁ e₁ h₁) (.finite s₂ m₂ e₂ h₂) =
        rounded (s₁ / s₂) n E := by
  -- The exponent at which the quotient is computed, and how far the dividend is shifted for it.
  obtain ⟨e, he⟩ : ∃ e, min (e₁ - e₂) (Format.binary64.targetExponent
      (totalExponent m₁ e₁ - totalExponent m₂ e₂)) = e := ⟨_, rfl⟩
  have htarget : Format.binary64.targetExponent (totalExponent m₁ e₁ - totalExponent m₂ e₂) =
      max ((m₁.log2 : Int) + 1 + e₁ - (m₂.log2 + 1 + e₂) - 53) (-1074) := rfl
  obtain ⟨k, hk⟩ : ∃ k, (e₁ - e₂ - e).toNat = k := ⟨_, rfl⟩
  have hvalue : (m₁ : Rat) * 2 ^ e₁ / (m₂ * 2 ^ e₂) = ((m₁ * 2 ^ k : Nat) : Rat) / m₂ * 2 ^ e := by
    have hpower : (2 : Rat) ^ e₁ = 2 ^ k * 2 ^ e * 2 ^ e₂ := by
      rw [← zpow_natCast, ← two_zpow_add, ← two_zpow_add]
      congr 1
      omega
    have hm₂ : (m₂ : Rat) ≠ 0 := by exact_mod_cast h₂.ne'
    have hpow₂ := (two_zpow_pos e₂).ne'
    rw [hpower]
    push_cast
    field_simp
  have hbits : e ≤ max (((m₁ * 2 ^ k / m₂).log2 : Int) + 1 + e - 53) (-1074) := by
    by_cases hleast : e ≤ -1074
    · exact hleast.trans (le_max_right _ _)
    · have hlog := le_div_shift (k := k) h₁ h₂ (by omega)
      omega
  rw [hvalue]
  unfold UnpackedFloat.div UnpackedFloat.divCore
  dsimp only
  rw [he, hk, Nat.shiftLeft_eq]
  exact exists_roundWithAccuracy _ (locates_quotient _ h₂) hbits

end Binary64

end ComputedCss
