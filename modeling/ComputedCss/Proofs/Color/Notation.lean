import ComputedCss.Proofs.Color
import ComputedCss.Proofs.Reading
import ComputedCss.Proofs.Value.Components

/-!
# The hexadecimal notation of a colour

Three, four, six or eight digits denote a colour, and many texts denote the same one. Each of them
has a normal form, and that is what is written for the colour.

* `IsHexNotation`: the texts that denote a colour.
* `normalForm`: lower case, two digits for every channel, and no alpha that is full.
* `toHex_eq_normalForm`: the colour that a text denotes is written as the normal form of the text.
* `hex_normalForm`: so two texts denote one colour exactly if they have one normal form.
-/

namespace ComputedCss

/-! ## Digits -/

/-- The characters that are hexadecimal digits. -/
def hexAlphabet : List Char :=
  "0123456789abcdefABCDEF".toList

theorem hexValue?_isSome_iff {c : Char} : (hexValue? c).isSome = true ↔ c ∈ hexAlphabet := by
  have hall : ∀ n < 128, (hexValue? (Char.ofNat n)).isSome = true → Char.ofNat n ∈ hexAlphabet := by
    decide
  constructor
  · intro h
    obtain ⟨value, hvalue⟩ := Option.isSome_iff_exists.mp h
    have hc := hall c.toNat (toNat_lt_of_hexValue? hvalue)
    rw [Char.ofNat_toNat] at hc
    exact hc h
  · have hdigits : hexAlphabet.all (fun d => (hexValue? d).isSome) = true := by decide
    exact List.all_eq_true.mp hdigits c

theorem digitChar_of_hexValue? {c : Char} {value : Nat} (h : hexValue? c = some value) :
    value < 16 ∧ Nat.digitChar value = c.toLower := by
  have hall : ∀ n < 128, ∀ v ∈ hexValue? (Char.ofNat n),
      v < 16 ∧ Nat.digitChar v = (Char.ofNat n).toLower := by decide
  have hc := hall c.toNat (toNat_lt_of_hexValue? h) value
  rw [Char.ofNat_toNat] at hc
  exact hc h

/-- The values of digits, one by one. -/
abbrev HexValues (digits : List Char) (values : List Nat) : Prop :=
  List.Forall₂ (fun c value => hexValue? c = some value) digits values

theorem mapM_hexValue?_eq_some_iff {digits : List Char} {values : List Nat} :
    digits.mapM hexValue? = some values ↔ HexValues digits values := by
  induction digits generalizing values with
  | nil => simp [HexValues, eq_comm]
  | cons c digits ih =>
    rw [List.mapM_cons, HexValues, List.forall₂_cons_left_iff]
    simp only [Option.bind_eq_bind, Option.bind_eq_some_iff, ih, Option.pure_def, Option.some.injEq]
    constructor
    · rintro ⟨value, hvalue, others, hothers, rfl⟩
      exact ⟨value, others, hvalue, hothers, rfl⟩
    · rintro ⟨value, others, hvalue, hothers, rfl⟩
      exact ⟨value, hvalue, others, hothers, rfl⟩

theorem exists_hexValues_iff {digits : List Char} :
    (∃ values, HexValues digits values) ↔ ∀ c ∈ digits, c ∈ hexAlphabet := by
  induction digits with
  | nil => simp [HexValues]
  | cons c digits ih =>
    rw [List.forall_mem_cons, ← ih, ← hexValue?_isSome_iff, Option.isSome_iff_exists]
    constructor
    · rintro ⟨_, h⟩
      obtain ⟨value, others, hvalue, hothers, rfl⟩ := List.forall₂_cons_left_iff.mp h
      exact ⟨⟨value, hvalue⟩, others, hothers⟩
    · rintro ⟨⟨value, hvalue⟩, others, hothers⟩
      exact ⟨value :: others, .cons hvalue hothers⟩

theorem HexValues.map_toLower {digits : List Char} {values : List Nat}
    (h : HexValues digits values) : digits.map Char.toLower = values.map Nat.digitChar := by
  induction h with
  | nil => rfl
  | cons hvalue _ ih =>
    rw [List.map_cons, List.map_cons, ih, (digitChar_of_hexValue? hvalue).2]

theorem HexValues.lt {digits : List Char} {values : List Nat} (h : HexValues digits values) :
    ∀ value ∈ values, value < 16 := by
  intro value hvalue
  obtain ⟨c, -, hc⟩ := Reading.exists_of_forall₂ h hvalue
  exact (digitChar_of_hexValue? hc).1

namespace Color

/-! ## Texts -/

/-- The text after one number sign, or the whole text. -/
def afterSign : List Char → List Char
  | '#' :: rest => rest
  | text => text

/-- The texts that denote a colour: three, four, six or eight digits, and a number sign before them
or none. -/
structure IsHexNotation (text : String) : Prop where
  digits : ∀ c ∈ afterSign text.toList, c ∈ hexAlphabet
  length : (afterSign text.toList).length ∈ [3, 4, 6, 8]

/-- Each digit of a short form stands for two. -/
def fullDigits (digits : List Char) : List Char :=
  if digits.length ≤ 4 then digits.flatMap fun c => [c, c] else digits

/-- An alpha after the six digits of the other channels is left out if it is full. -/
def dropOpaque (digits : List Char) : List Char :=
  if digits.drop 6 = ['f', 'f'] then digits.take 6 else digits

/-- A number sign and the digits in lower case, doubled in a short form, without a full alpha. -/
def normalForm (text : String) : String :=
  String.ofList ('#' :: dropOpaque (fullDigits ((afterSign text.toList).map Char.toLower)))

/-! ## Reading -/

/-- The colour of the values of three, four, six or eight digits. -/
def ofValues? : List Nat → Option Color
  | [r, g, b] => some (solid (byteOfDigits r r) (byteOfDigits g g) (byteOfDigits b b))
  | [r, g, b, a] =>
    some ⟨byteOfDigits r r, byteOfDigits g g, byteOfDigits b b, byteOfDigits a a⟩
  | [r, r', g, g', b, b'] =>
    some (solid (byteOfDigits r r') (byteOfDigits g g') (byteOfDigits b b'))
  | [r, r', g, g', b, b', a, a'] =>
    some ⟨byteOfDigits r r', byteOfDigits g g', byteOfDigits b b', byteOfDigits a a'⟩
  | _ => none

theorem ofHex?_eq (text : String) :
    ofHex? text = ((afterSign text.toList).mapM hexValue?).bind ofValues? := by
  have hfound : ∀ {values}, (afterSign text.toList).mapM hexValue? = some values →
      ((afterSign text.toList).mapM hexValue?).bind ofValues? = ofValues? values := by
    intro values h
    rw [h, Option.bind_some]
  unfold ofHex?
  dsimp only
  split
  case h_5 hthree hfour hsix height =>
    symm
    rw [Option.bind_eq_none_iff]
    intro values hvalues
    unfold ofValues?
    split
    · exact (hthree _ _ _ hvalues).elim
    · exact (hfour _ _ _ _ hvalues).elim
    · exact (hsix _ _ _ _ _ _ hvalues).elim
    · exact (height _ _ _ _ _ _ _ _ hvalues).elim
    · rfl
  all_goals
    rename_i hvalues
    exact (hfound hvalues).symm

theorem ofHex?_eq_some_iff {text : String} {color : Color} : ofHex? text = some color ↔
    ∃ values, HexValues (afterSign text.toList) values ∧ ofValues? values = some color := by
  simp only [ofHex?_eq, Option.bind_eq_some_iff, mapM_hexValue?_eq_some_iff]

theorem exists_ofValues?_iff {values : List Nat} :
    (∃ color, ofValues? values = some color) ↔ values.length ∈ [3, 4, 6, 8] := by
  constructor
  · rintro ⟨color, h⟩
    unfold ofValues? at h
    split at h <;> simp at h ⊢
  · intro h
    match values, h with
    | [_, _, _], _ => exact ⟨_, rfl⟩
    | [_, _, _, _], _ => exact ⟨_, rfl⟩
    | [_, _, _, _, _, _], _ => exact ⟨_, rfl⟩
    | [_, _, _, _, _, _, _, _], _ => exact ⟨_, rfl⟩

theorem exists_ofHex?_iff {text : String} :
    (∃ color, ofHex? text = some color) ↔ IsHexNotation text := by
  simp only [ofHex?_eq_some_iff]
  constructor
  · rintro ⟨color, values, hvalues, hcolor⟩
    refine ⟨exists_hexValues_iff.mp ⟨values, hvalues⟩, ?_⟩
    rw [hvalues.length_eq]
    exact exists_ofValues?_iff.mp ⟨color, hcolor⟩
  · rintro ⟨hdigits, hlength⟩
    obtain ⟨values, hvalues⟩ := exists_hexValues_iff.mpr hdigits
    rw [hvalues.length_eq] at hlength
    obtain ⟨color, hcolor⟩ := exists_ofValues?_iff.mpr hlength
    exact ⟨color, values, hvalues, hcolor⟩

/-! ## Writing -/

theorem byteDigits_byteOfDigits {high low : Nat} (hhigh : high < 16) (hlow : low < 16) :
    byteDigits (byteOfDigits high low) = [Nat.digitChar high, Nat.digitChar low] := by
  have hbyte : (byteOfDigits high low).toNat = 16 * high + low := by
    rw [byteOfDigits, Nat.toUInt8, UInt8.toNat_ofNat']
    exact Nat.mod_eq_of_lt (by omega)
  rw [byteDigits, hbyte, show (16 * high + low) / 16 = high by omega,
    show (16 * high + low) % 16 = low by omega]

theorem byteDigits_eq_full_iff {byte : UInt8} : byteDigits byte = ['f', 'f'] ↔ byte = 255 := by
  have hall : ∀ n < 16, Nat.digitChar n = 'f' → n = 15 := by decide
  constructor
  · intro h
    have hbyte := byte.toNat_lt
    obtain ⟨hhigh, hlow⟩ : Nat.digitChar (byte.toNat / 16) = 'f' ∧
        Nat.digitChar (byte.toNat % 16) = 'f' := by simpa [byteDigits] using h
    have hdiv := hall _ (by omega) hhigh
    have hmod := hall _ (by omega) hlow
    rw [← UInt8.toNat_inj]
    show byte.toNat = 255
    omega
  · rintro rfl
    rfl

theorem toHex_eq_dropOpaque (color : Color) :
    color.toHex = String.ofList ('#' :: dropOpaque (byteDigits color.red ++
      byteDigits color.green ++ byteDigits color.blue ++ byteDigits color.alpha)) := by
  have hlength : (byteDigits color.red ++ byteDigits color.green ++ byteDigits color.blue).length =
      6 := rfl
  rw [toHex, dropOpaque, List.drop_left' hlength, List.take_left' hlength]
  by_cases hopaque : color.alpha = 255
  · rw [if_pos hopaque, if_pos (byteDigits_eq_full_iff.mpr hopaque), List.append_nil]
  · rw [if_neg hopaque, if_neg (mt byteDigits_eq_full_iff.mp hopaque)]

theorem toHex_solid (red green blue : UInt8) :
    (solid red green blue).toHex = String.ofList ('#' :: dropOpaque (byteDigits red ++
      byteDigits green ++ byteDigits blue)) := by
  rw [toHex, solid, if_pos rfl, List.append_nil]
  rfl

theorem toHex_ofValues? {values : List Nat} {color : Color} (hlt : ∀ value ∈ values, value < 16)
    (h : ofValues? values = some color) :
    color.toHex = String.ofList ('#' :: dropOpaque (fullDigits (values.map Nat.digitChar))) := by
  unfold ofValues? at h
  split at h
  case h_5 => exact absurd h (by simp)
  all_goals
    obtain rfl := Option.some.inj h
    simp only [List.forall_mem_cons] at hlt
  · obtain ⟨hr, hg, hb, -⟩ := hlt
    rw [toHex_solid, byteDigits_byteOfDigits hr hr, byteDigits_byteOfDigits hg hg,
      byteDigits_byteOfDigits hb hb]
    rfl
  · obtain ⟨hr, hg, hb, ha, -⟩ := hlt
    rw [toHex_eq_dropOpaque, byteDigits_byteOfDigits hr hr, byteDigits_byteOfDigits hg hg,
      byteDigits_byteOfDigits hb hb, byteDigits_byteOfDigits ha ha]
    rfl
  · obtain ⟨hr, hr', hg, hg', hb, hb', -⟩ := hlt
    rw [toHex_solid, byteDigits_byteOfDigits hr hr', byteDigits_byteOfDigits hg hg',
      byteDigits_byteOfDigits hb hb']
    rfl
  · obtain ⟨hr, hr', hg, hg', hb, hb', ha, ha', -⟩ := hlt
    rw [toHex_eq_dropOpaque, byteDigits_byteOfDigits hr hr', byteDigits_byteOfDigits hg hg',
      byteDigits_byteOfDigits hb hb', byteDigits_byteOfDigits ha ha']
    rfl

/-- **The colour that a text denotes is written as the normal form of the text.** -/
theorem toHex_eq_normalForm {text : String} {color : Color} (h : ofHex? text = some color) :
    color.toHex = normalForm text := by
  obtain ⟨values, hvalues, hcolor⟩ := ofHex?_eq_some_iff.mp h
  rw [toHex_ofValues? hvalues.lt hcolor, normalForm, hvalues.map_toLower]

theorem toHex_injective {color other : Color} (h : color.toHex = other.toHex) : color = other := by
  have hread := ofHex?_toHex color
  rw [h, ofHex?_toHex] at hread
  exact (Option.some.inj hread).symm

/-! ## The notation and its normal form -/

/-- **The notation of colours and its normal form.** A text denotes a colour exactly if it is three,
four, six or eight digits after a number sign or none. What is written for the colour is the normal
form of the text: the digits in lower case, doubled in a short form, without a full alpha. Every
colour is read from what is written for it, and two texts denote the same colour exactly if they
have the same normal form. -/
theorem hex_normalForm :
    (∀ text, (∃ color, ofHex? text = some color) ↔ IsHexNotation text) ∧
    (∀ text color, ofHex? text = some color → color.toHex = normalForm text) ∧
    (∀ color : Color, ofHex? color.toHex = some color) ∧
    ∀ text other color color', ofHex? text = some color → ofHex? other = some color' →
      (color = color' ↔ normalForm text = normalForm other) := by
  refine ⟨?accepts, ?writes, ofHex?_toHex, ?denotes⟩
  case accepts => exact fun text => exists_ofHex?_iff
  case writes => exact fun text color h => toHex_eq_normalForm h
  case denotes =>
    intro text other color color' h h'
    rw [← toHex_eq_normalForm h, ← toHex_eq_normalForm h']
    exact ⟨congrArg toHex, toHex_injective⟩

/-- Four capital digits and six without a sign denote the same opaque blue. -/
theorem hex_normalForm_opaqueBlue :
    ofHex? "#00FF" = some ⟨0, 0, 255, 255⟩ ∧ ofHex? "0000ff" = some ⟨0, 0, 255, 255⟩ ∧
    normalForm "#00FF" = "#0000ff" ∧ normalForm "0000ff" = "#0000ff" := by
  have hshort : ofHex? "#00FF" = some ⟨0, 0, 255, 255⟩ := by decide +kernel
  have hlong : ofHex? "0000ff" = some ⟨0, 0, 255, 255⟩ := by decide +kernel
  have hall := hex_normalForm
  have hwritten := hall.2.1 _ _ hshort
  have hsame := (hall.2.2.2 _ _ _ _ hshort hlong).mp rfl
  have hform : normalForm "#00FF" = "#0000ff" := hwritten.symm
  exact ⟨hshort, hlong, hform, hsame.symm.trans hform⟩

end Color

end ComputedCss
