import Mathlib.Algebra.Order.Floor.Ring
import Mathlib.Data.Rat.Floor
import Mathlib.Tactic.FieldSimp
import Mathlib.Tactic.IntervalCases
import Mathlib.Tactic.Linarith
import Mathlib.Tactic.NormNum
import Mathlib.Tactic.Ring
import ComputedCss.Color.Function
import ComputedCss.Number.Exact

/-!
# The reference conversion of hue, saturation and lightness

Colour specifications give red, green and blue by one formula, in which a channel is the lightness
and a weight times the amplitude. The weight goes up and down along the turn. The conversion by
chroma and sectors is the same function over the rationals.

* `weight`: the weight of a channel at a place of the turn.
* `reference`: the formula.
* `turn_exact`: the reduced hue is the remainder of the division that rounds down.
* `arm_eq_weights`: in each of the six sectors the arm has the weights of the formula.
* `channels_reference`: the conversion is the formula.
-/

namespace ComputedCss.Hsl

/-! ## The formula -/

/-- The remainder of the division that rounds down. -/
def modulo (x m : Rat) : Rat := x - m * ⌊x / m⌋

/-- How far a channel is below the lightness, from `-1` to `1`. -/
def weight (k : Rat) : Rat := max (-1) (min (min (k - 3) (9 - k)) 1)

/-- The channel that stands `n` twelfths of a turn from the hue. -/
def reference (hue s l n : Rat) : Rat :=
  l - s * min l (1 - l) * weight (modulo (n + hue / 30) 12)

/-- A saturation or a lightness, clamped to the range from nothing to one. -/
def fraction (x : Rat) : Rat := max 0 (min x 1)

theorem fraction_bounds (x : Rat) : 0 ≤ fraction x ∧ fraction x ≤ 1 :=
  ⟨le_max_left _ _, max_le zero_le_one (min_le_right _ _)⟩

theorem modulo_eq {x m : Rat} (hm : 0 < m) (q : Int) (hlow : 0 ≤ x - m * q)
    (hhigh : x - m * q < m) : modulo x m = x - m * q := by
  have hfloor : ⌊x / m⌋ = q := by
    rw [Int.floor_eq_iff, le_div_iff₀ hm, div_lt_iff₀ hm]
    constructor <;> linarith
  rw [modulo, hfloor]

theorem modulo_add (x : Rat) {m : Rat} (hm : 0 < m) (q : Int) :
    modulo (x + m * q) m = modulo x m := by
  have hdiv : (x + m * q) / m = x / m + q := by field_simp
  rw [modulo, modulo, hdiv, Int.floor_add_intCast]
  push_cast
  ring

theorem modulo_bounds (x : Rat) {m : Rat} (hm : 0 < m) : 0 ≤ modulo x m ∧ modulo x m < m := by
  have hlow : (⌊x / m⌋ : Rat) * m ≤ x := (le_div_iff₀ hm).mp (Int.floor_le _)
  have hhigh : x < ((⌊x / m⌋ : Rat) + 1) * m := (div_lt_iff₀ hm).mp (Int.lt_floor_add_one _)
  rw [modulo]
  constructor <;> linarith

section Weight

variable {k : Rat}

theorem weight_low (h : k ≤ 2) : weight k = -1 := by
  rw [weight, max_eq_left]
  exact (min_le_left _ _).trans ((min_le_left _ _).trans (by linarith))

theorem weight_rising (hlow : 2 ≤ k) (hhigh : k ≤ 4) : weight k = k - 3 := by
  rw [weight, min_eq_left (show k - 3 ≤ 9 - k by linarith),
    min_eq_left (show k - 3 ≤ 1 by linarith), max_eq_right (by linarith)]

theorem weight_high (hlow : 4 ≤ k) (hhigh : k ≤ 8) : weight k = 1 := by
  rw [weight, min_eq_right (le_min (by linarith) (by linarith)), max_eq_right (by norm_num)]

theorem weight_falling (hlow : 8 ≤ k) (hhigh : k ≤ 10) : weight k = 9 - k := by
  rw [weight, min_eq_right (show 9 - k ≤ k - 3 by linarith),
    min_eq_left (show 9 - k ≤ 1 by linarith), max_eq_right (by linarith)]

theorem weight_low_end (h : 10 ≤ k) : weight k = -1 := by
  rw [weight, max_eq_left]
  exact (min_le_left _ _).trans ((min_le_right _ _).trans (by linarith))

theorem weight_bounds (k : Rat) : -1 ≤ weight k ∧ weight k ≤ 1 :=
  ⟨le_max_left _ _, max_le (by norm_num) (min_le_right _ _)⟩

end Weight

/-! ## Sectors -/

section Arms

variable {ν : Type} [Scalar ν]

/-- The shares of red, green and blue in a sector. -/
def arm (sector : Nat) (chroma part : ν) : ν × ν × ν :=
  match sector with
  | 0 => (chroma, part, 0.0)
  | 1 => (part, chroma, 0.0)
  | 2 => (0.0, chroma, part)
  | 3 => (0.0, part, chroma)
  | 4 => (part, 0.0, chroma)
  | 5 => (chroma, 0.0, part)
  | _ => (0.0, 0.0, 0.0)

/-- The channels that the arm of a sector gives for a hue, which may lie in another sector. -/
def channelsIn (sector : Nat) (hue saturation lightness : ν) : ν × ν × ν :=
  let s := Scalar.clamp 0.0 1.0 saturation
  let l := Scalar.clamp 0.0 1.0 lightness
  let chroma := (1.0 - Scalar.abs (2.0 * l - 1.0)) * s
  let shares := arm sector chroma
    (chroma * (1.0 - Scalar.abs (Scalar.rem (turn hue / 60.0) 2.0 - 1.0)))
  let least := l - chroma / 2.0
  ((shares.1 + least) * 255.0, (shares.2.1 + least) * 255.0, (shares.2.2 + least) * 255.0)

theorem channels_eq_channelsIn (hue saturation lightness : ν) :
    channels hue saturation lightness =
      channelsIn (Scalar.wholePart (turn hue / 60.0)) hue saturation lightness := rfl

end Arms

/-- How much of the chroma the channel between the largest and the least has. -/
def tent (sector : Rat) : Rat := 1 - |modulo sector 2 - 1|

theorem tent_rising {u : Rat} (q : Int) (hlow : 2 * q ≤ u) (hhigh : u ≤ 2 * q + 1) :
    tent u = u - 2 * q := by
  rw [tent, modulo_eq (by norm_num) q (by linarith) (by linarith), abs_of_nonpos (by linarith)]
  ring

theorem tent_even (q : Int) : tent (2 * q) = 0 :=
  (tent_rising q le_rfl (by linarith)).trans (sub_self _)

theorem tent_odd (q : Int) : tent (2 * q + 1) = 1 :=
  (tent_rising q (by linarith) le_rfl).trans (add_sub_cancel_left _ _)

theorem tent_falling {u : Rat} (q : Int) (hlow : 2 * q + 1 ≤ u) (hhigh : u < 2 * q + 2) :
    tent u = 2 * q + 2 - u := by
  rw [tent, modulo_eq (by norm_num) q (by linarith) (by linarith), abs_of_nonneg (by linarith)]
  ring

theorem modulo_first {x : Rat} (hlow : 0 ≤ x) (hhigh : x < 12) : modulo x 12 = x := by
  rw [modulo_eq (by norm_num) 0 (by norm_num; exact hlow) (by norm_num; exact hhigh)]
  norm_num

theorem modulo_second {x : Rat} (hlow : 12 ≤ x) (hhigh : x < 24) : modulo x 12 = x - 12 := by
  rw [modulo_eq (by norm_num) 1 (by norm_num; exact hlow) (by norm_num; linarith)]
  norm_num

/-- **In each of the six sectors the arm has the weights of the formula.** -/
theorem arm_eq_weights {u : Rat} (hlow : 0 ≤ u) (hhigh : u < 6) (a : Rat) :
    arm ⌊u⌋₊ (2 * a) (2 * a * tent u) =
      (a * (1 - weight (modulo (2 * u) 12)), a * (1 - weight (modulo (8 + 2 * u) 12)),
        a * (1 - weight (modulo (4 + 2 * u) 12))) := by
  have hbelow := Nat.floor_le hlow
  have habove := Nat.lt_floor_add_one u
  have hlast : ⌊u⌋₊ < 6 := (Nat.floor_lt hlow).mpr hhigh
  generalize ⌊u⌋₊ = i at hbelow habove hlast
  have hfirst : modulo (2 * u) 12 = 2 * u := modulo_first (by linarith) (by linarith)
  rw [hfirst]
  -- The other two channels are past the end of the turn from the third and the fifth sector on.
  interval_cases i <;> norm_num at hbelow habove
  case «0» =>
    rw [modulo_first (by linarith) (by linarith), modulo_first (by linarith) (by linarith),
      weight_low (by linarith), weight_falling (by linarith) (by linarith),
      weight_high (by linarith) (by linarith),
      tent_rising 0 (by norm_num; linarith) (by norm_num; linarith)]
    refine Prod.ext ?_ (Prod.ext ?_ ?_) <;> norm_num [arm] <;> ring
  case «1» =>
    rw [modulo_first (by linarith) (by linarith), modulo_first (by linarith) (by linarith),
      weight_rising (by linarith) (by linarith), weight_low_end (by linarith),
      weight_high (by linarith) (by linarith),
      tent_falling 0 (by norm_num; linarith) (by norm_num; linarith)]
    refine Prod.ext ?_ (Prod.ext ?_ ?_) <;> norm_num [arm] <;> ring
  case «2» =>
    rw [modulo_second (by linarith) (by linarith), modulo_first (by linarith) (by linarith),
      weight_high (by linarith) (by linarith), weight_low (by linarith),
      weight_falling (by linarith) (by linarith),
      tent_rising 1 (by norm_num; linarith) (by norm_num; linarith)]
    refine Prod.ext ?_ (Prod.ext ?_ ?_) <;> norm_num [arm] <;> ring
  case «3» =>
    rw [modulo_second (by linarith) (by linarith), modulo_first (by linarith) (by linarith),
      weight_high (by linarith) (by linarith), weight_rising (by linarith) (by linarith),
      weight_low_end (by linarith),
      tent_falling 1 (by norm_num; linarith) (by norm_num; linarith)]
    refine Prod.ext ?_ (Prod.ext ?_ ?_) <;> norm_num [arm] <;> ring
  case «4» =>
    rw [modulo_second (by linarith) (by linarith), modulo_second (by linarith) (by linarith),
      weight_falling (by linarith) (by linarith), weight_high (by linarith) (by linarith),
      weight_low (by linarith),
      tent_rising 2 (by norm_num; linarith) (by norm_num; linarith)]
    refine Prod.ext ?_ (Prod.ext ?_ ?_) <;> norm_num [arm] <;> ring
  case «5» =>
    rw [modulo_second (by linarith) (by linarith), modulo_second (by linarith) (by linarith),
      weight_low_end (by linarith), weight_high (by linarith) (by linarith),
      weight_rising (by linarith) (by linarith),
      tent_falling 2 (by norm_num; linarith) (by norm_num; linarith)]
    refine Prod.ext ?_ (Prod.ext ?_ ?_) <;> norm_num [arm] <;> ring

/-! ## The conversion -/

theorem rem_of_nonneg {x m : Rat} (hm : 0 < m) (hx : 0 ≤ x) : Scalar.rem x m = modulo x m := by
  have htruncate : Exact.truncate (x / m) = ⌊x / m⌋ := if_neg (not_lt.mpr (by positivity))
  show x - m * Exact.truncate (x / m) = _
  rw [htruncate, modulo]

theorem rem_of_neg {x m : Rat} (hm : 0 < m) (hx : x < 0) :
    Scalar.rem x m = -modulo (-x) m := by
  have htruncate : Exact.truncate (x / m) = -⌊-x / m⌋ := by
    rw [Exact.truncate, if_pos (div_neg_of_neg_of_pos hx hm), Rat.ceil_eq_neg_floor_neg, neg_div]
    rfl
  show x - m * Exact.truncate (x / m) = _
  rw [htruncate, modulo]
  push_cast
  ring

theorem turn_exact (hue : Rat) : turn hue = modulo hue 360 := by
  have hm : (0 : Rat) < 360 := by norm_num
  have hturn : turn hue = if Scalar.rem hue 360 < 0 then Scalar.rem hue 360 + 360
      else Scalar.rem hue 360 := by
    have h360 : (360.0 : Rat) = 360 := by norm_num
    have hzero : (0.0 : Rat) = 0 := by norm_num
    simp only [turn, h360, hzero, Scalar.lt, decide_eq_true_eq]
  rw [hturn]
  rcases le_or_gt 0 hue with hhue | hhue
  · rw [rem_of_nonneg hm hhue, if_neg (not_lt.mpr (modulo_bounds hue hm).1)]
  · obtain ⟨hlow, hhigh⟩ := modulo_bounds (-hue) hm
    rw [rem_of_neg hm hhue]
    split_ifs with hneg
    · rw [modulo] at hneg hlow hhigh ⊢
      rw [modulo_eq hm (-⌊-hue / 360⌋ - 1) (by push_cast; linarith) (by push_cast; linarith)]
      push_cast
      ring
    · rw [modulo] at hneg hlow hhigh ⊢
      rw [modulo_eq hm (-⌊-hue / 360⌋) (by push_cast; linarith) (by push_cast; linarith)]
      push_cast
      ring

theorem clamp_exact (x : Rat) : Scalar.clamp 0.0 1.0 x = fraction x := by
  have hzero : (0.0 : Rat) = 0 := by norm_num
  have hone : (1.0 : Rat) = 1 := by norm_num
  simp only [Scalar.clamp, Scalar.lt, fraction, hzero, hone, decide_eq_true_eq]
  split_ifs with hlow hhigh
  · rw [min_eq_left (by linarith), max_eq_left hlow.le]
  · rw [min_eq_right hhigh.le, max_eq_right zero_le_one]
  · rw [min_eq_left (not_lt.mp hhigh), max_eq_right (not_lt.mp hlow)]

theorem abs_exact (x : Rat) : Scalar.abs x = |x| := by
  rcases le_total 0 x with h | h
  · exact (Rat.abs_of_nonneg h).trans (abs_of_nonneg h).symm
  · exact (Rat.abs_of_nonpos h).trans (abs_of_nonpos h).symm

theorem chroma_exact (l : Rat) : 1 - |2 * l - 1| = 2 * min l (1 - l) := by
  rcases le_total l (1 - l) with h | h
  · rw [min_eq_left h, abs_of_nonpos (by linarith)]
    ring
  · rw [min_eq_right h, abs_of_nonneg (by linarith)]
    ring

/-- The place of a hue on the turn, in sectors. -/
def place (hue : Rat) : Rat := modulo hue 360 / 60

theorem place_bounds (hue : Rat) : 0 ≤ place hue ∧ place hue < 6 := by
  obtain ⟨hlow, hhigh⟩ := modulo_bounds hue (show (0 : Rat) < 360 by norm_num)
  rw [place]
  constructor <;> linarith

theorem channelsIn_exact (sector : Nat) (hue saturation lightness : Rat) :
    let s := fraction saturation
    let l := fraction lightness
    let a := s * min l (1 - l)
    let shares := arm sector (2 * a) (2 * a * tent (place hue))
    channelsIn sector hue saturation lightness =
      (255 * (shares.1 + (l - a)), 255 * (shares.2.1 + (l - a)), 255 * (shares.2.2 + (l - a))) := by
  intro s l a shares
  have hrem : Scalar.rem (place hue) 2 = modulo (place hue) 2 :=
    rem_of_nonneg (by norm_num) (place_bounds hue).1
  have h1 : (1.0 : Rat) = 1 := by norm_num
  have h2 : (2.0 : Rat) = 2 := by norm_num
  have h60 : (60.0 : Rat) = 60 := by norm_num
  have h255 : (255.0 : Rat) = 255 := by norm_num
  have hchroma : (1 - |2 * l - 1|) * s = 2 * a := by
    rw [chroma_exact]
    ring
  have hleast : l - 2 * a / 2 = l - a := by ring
  have hshares : arm sector (2 * a) (2 * a * (1 - |modulo (place hue) 2 - 1|)) = shares := rfl
  unfold channelsIn
  dsimp only
  rw [clamp_exact, clamp_exact, turn_exact, h1, h2, h60, h255, abs_exact, abs_exact, hchroma,
    ← place, hrem, hshares, hleast]
  simp only [mul_comm]

theorem reference_eq (hue s l n : Rat) :
    reference hue s l n = l - s * min l (1 - l) * weight (modulo (n + 2 * place hue) 12) := by
  have hplace : n + hue / 30 = n + 2 * place hue + 12 * (⌊hue / 360⌋ : Int) := by
    rw [place, modulo]
    ring
  rw [reference, hplace, modulo_add _ (by norm_num)]

theorem wholePart_turn (hue : Rat) :
    Scalar.wholePart (turn hue / 60.0) = ⌊place hue⌋₊ := by
  have h60 : (60.0 : Rat) = 60 := by norm_num
  rw [turn_exact, h60, ← place, ← Int.floor_toNat]
  rfl

theorem channels_eq_reference (hue saturation lightness : Rat) :
    let s := fraction saturation
    let l := fraction lightness
    channels hue saturation lightness =
      (255 * reference hue s l 0, 255 * reference hue s l 8, 255 * reference hue s l 4) := by
  intro s l
  obtain ⟨hlow, hhigh⟩ := place_bounds hue
  rw [channels_eq_channelsIn, wholePart_turn, channelsIn_exact, arm_eq_weights hlow hhigh]
  simp only [reference_eq, zero_add]
  refine Prod.ext ?_ (Prod.ext ?_ ?_) <;> ring

theorem reference_bounds {s l : Rat} (hs : 0 ≤ s ∧ s ≤ 1) (hl : 0 ≤ l ∧ l ≤ 1) (hue n : Rat) :
    0 ≤ reference hue s l n ∧ reference hue s l n ≤ 1 := by
  obtain ⟨hlow, hhigh⟩ := weight_bounds (modulo (n + hue / 30) 12)
  rw [reference]
  generalize weight (modulo (n + hue / 30) 12) = w at hlow hhigh
  have hmin : 0 ≤ min l (1 - l) := le_min hl.1 (by linarith [hl.2])
  have ha : 0 ≤ s * min l (1 - l) := mul_nonneg hs.1 hmin
  have hle : s * min l (1 - l) ≤ min l (1 - l) := mul_le_of_le_one_left hmin hs.2
  have hleft := min_le_left l (1 - l)
  have hright := min_le_right l (1 - l)
  have hupper : s * min l (1 - l) * w ≤ s * min l (1 - l) := mul_le_of_le_one_right ha hhigh
  have hlower : -(s * min l (1 - l)) ≤ s * min l (1 - l) * w := by
    have hmul := mul_le_mul_of_nonneg_left hlow ha
    linarith
  constructor <;> linarith

theorem clamp_round {x : Rat} (hlow : 0 ≤ x) (hhigh : x ≤ 255) :
    Scalar.clamp 0.0 255.0 (Scalar.round x) = Scalar.round x := by
  have hround : (Scalar.round x : Rat) = (⌊x + 1 / 2⌋ : Int) := by
    show ((Exact.round x : Int) : Rat) = _
    rw [Exact.round, if_neg (not_lt.mpr hlow)]
    rfl
  have hnonneg : (0 : Int) ≤ ⌊x + 1 / 2⌋ := Int.floor_nonneg.mpr (by linarith)
  have hle : ⌊x + 1 / 2⌋ ≤ (255 : Int) := Int.floor_le_iff.mpr (by push_cast; linarith)
  have hzero : (0.0 : Rat) = 0 := by norm_num
  have h255 : (255.0 : Rat) = 255 := by norm_num
  have hlow' : ¬ ((⌊x + 1 / 2⌋ : Int) : Rat) < 0 := not_lt.mpr (by exact_mod_cast hnonneg)
  have hhigh' : ¬ (255 : Rat) < (⌊x + 1 / 2⌋ : Int) := not_lt.mpr (by exact_mod_cast hle)
  rw [hround]
  simp only [Scalar.clamp, Scalar.lt, hzero, h255, decide_eq_true_eq, if_neg hlow', if_neg hhigh']

theorem arm_boundary {r : Nat} (hr : r < 6) (chroma : Rat) :
    arm ((r + 5) % 6) chroma (chroma * tent r) = arm r chroma (chroma * tent r) := by
  have hzero : (0.0 : Rat) = 0 := by norm_num
  -- The middle channel has nothing where an even sector begins, and all where an odd one does.
  obtain ⟨q, rfl | rfl⟩ := r.even_or_odd'
  · have htent : tent ((2 * q : Nat) : Rat) = 0 := by exact_mod_cast tent_even q
    have hq : q < 3 := by omega
    rw [htent, mul_zero, ← hzero]
    interval_cases q <;> rfl
  · have htent : tent ((2 * q + 1 : Nat) : Rat) = 1 := by exact_mod_cast tent_odd q
    have hq : q < 3 := by omega
    rw [htent, mul_one]
    interval_cases q <;> rfl

theorem place_boundary (n : Int) : place (60 * (n : Rat)) = ((n % 6).toNat : Nat) := by
  have hr : (((n % 6).toNat : Nat) : Int) = n % 6 :=
    Int.toNat_of_nonneg (Int.emod_nonneg n (by norm_num))
  have hsplit : (n : Rat) = 6 * (n / 6 : Int) + ((n % 6).toNat : Nat) := by
    have hint : n = 6 * (n / 6) + ((n % 6).toNat : Nat) := by omega
    exact_mod_cast hint
  have hlt : (((n % 6).toNat : Nat) : Rat) < 6 := by
    have hnat : (n % 6).toNat < 6 := by omega
    exact_mod_cast hnat
  have hnonneg : (0 : Rat) ≤ ((n % 6).toNat : Nat) := Nat.cast_nonneg _
  rw [place, modulo_eq (by norm_num) (n / 6) (by linarith) (by linarith)]
  linarith

theorem channelsIn_boundary (n : Int) (saturation lightness : Rat) :
    channelsIn (n % 6).toNat (60 * (n : Rat)) saturation lightness =
      channels (60 * (n : Rat)) saturation lightness ∧
    channelsIn ((n - 1) % 6).toNat (60 * (n : Rat)) saturation lightness =
      channels (60 * (n : Rat)) saturation lightness := by
  have hsame : channels (60 * (n : Rat)) saturation lightness =
      channelsIn (n % 6).toNat (60 * (n : Rat)) saturation lightness := by
    rw [channels_eq_channelsIn, wholePart_turn, place_boundary, Nat.floor_natCast]
  have hbefore : ((n - 1) % 6).toNat = ((n % 6).toNat + 5) % 6 := by omega
  rw [hsame]
  refine ⟨rfl, ?_⟩
  rw [hbefore, channelsIn_exact, channelsIn_exact, place_boundary, arm_boundary (by omega)]

theorem channels_add_turns (hue saturation lightness : Rat) (n : Int) :
    channels (hue + 360 * (n : Rat)) saturation lightness = channels hue saturation lightness := by
  have hplace : place (hue + 360 * (n : Rat)) = place hue := by
    rw [place, place, modulo_add hue (by norm_num)]
  rw [channels_eq_channelsIn, channels_eq_channelsIn, wholePart_turn, wholePart_turn,
    channelsIn_exact, channelsIn_exact, hplace]

/-- **The conversion is the formula.** The saturation and the lightness are clamped, and the
channels are the values of the formula on a scale to 255. They lie in the range before they are
rounded and after it, so the last clamp does nothing. Where two sectors meet, the arms of both give
the channels, and hues that are whole turns apart have the same channels. -/
theorem channels_reference (hue saturation lightness : Rat) :
    channels hue saturation lightness =
      (255 * reference hue (fraction saturation) (fraction lightness) 0,
        255 * reference hue (fraction saturation) (fraction lightness) 8,
        255 * reference hue (fraction saturation) (fraction lightness) 4) ∧
    (let values := channels hue saturation lightness
      ∀ x ∈ [values.1, values.2.1, values.2.2],
        0 ≤ x ∧ x ≤ 255 ∧ Scalar.clamp 0.0 255.0 (Scalar.round x) = Scalar.round x) ∧
    (∀ n : Int, channelsIn (n % 6).toNat (60 * (n : Rat)) saturation lightness =
        channels (60 * (n : Rat)) saturation lightness ∧
      channelsIn ((n - 1) % 6).toNat (60 * (n : Rat)) saturation lightness =
        channels (60 * (n : Rat)) saturation lightness) ∧
    ∀ n : Int, channels (hue + 360 * (n : Rat)) saturation lightness =
      channels hue saturation lightness := by
  have hvalues := channels_eq_reference hue saturation lightness
  have hrange : ∀ n, 0 ≤ 255 * reference hue (fraction saturation) (fraction lightness) n ∧
      255 * reference hue (fraction saturation) (fraction lightness) n ≤ 255 := by
    intro n
    obtain ⟨hlow, hhigh⟩ :=
      reference_bounds (fraction_bounds saturation) (fraction_bounds lightness) hue n
    constructor <;> linarith
  have hclamp := fun n => clamp_round (hrange n).1 (hrange n).2
  refine ⟨hvalues, ?_, fun n => channelsIn_boundary n saturation lightness,
    fun n => channels_add_turns hue saturation lightness n⟩
  rw [hvalues]
  simp only [List.mem_cons, List.not_mem_nil, or_false, forall_eq_or_imp, forall_eq]
  exact ⟨⟨(hrange 0).1, (hrange 0).2, hclamp 0⟩, ⟨(hrange 8).1, (hrange 8).2, hclamp 8⟩,
    ⟨(hrange 4).1, (hrange 4).2, hclamp 4⟩⟩

end ComputedCss.Hsl
