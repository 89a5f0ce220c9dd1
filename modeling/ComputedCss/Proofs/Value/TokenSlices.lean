import ComputedCss.Proofs.Color.Notation
import ComputedCss.Proofs.Text.Slices
import ComputedCss.Proofs.Value.StringEnds
import Mathlib.Algebra.Ring.Nat

/-!
# Strings and hexadecimal colours by positions

An escape counts the digits that it takes as characters, and cuts the text there as at a position. A
hexadecimal colour cuts its digits one by one or two by two.

* `hexNumber?`: the number that digits write, if it fits.
* `readEscape_eq`, `readString_eq`, `ofHex?_eq`: the slices can be taken, and what is read is what
  `readEscape`, `readString` and `Color.ofHex?` read.
-/

namespace ComputedCss.Slicing

/-! ## Digits -/

/-- Whether a character is a hexadecimal digit. -/
def isHexDigit (c : Char) : Bool :=
  (hexValue? c).isSome

/-- The text after one plus sign, or the whole text. -/
def afterPlus : List Char → List Char
  | '+' :: rest => rest
  | text => text

/-- The number below a bound that hexadecimal digits write. A plus sign may stand before them. -/
def hexNumber? (bound : Nat) (text : List Char) : Option Nat :=
  if (afterPlus text).isEmpty then none
  else ((afterPlus text).mapM hexValue?).bind fun values =>
    let number := values.foldl (fun n value => 16 * n + value) 0
    if number < bound then some number else none

theorem isAscii_isHexDigit : IsAscii isHexDigit := by
  intro c hc
  by_contra hne
  have hdigit : isHexDigit c = true := by simpa using hne
  obtain ⟨value, hvalue⟩ := Option.isSome_iff_exists.mp hdigit
  have hlt := toNat_lt_of_hexValue? hvalue
  omega

theorem exists_hexValues_of_all {digits : List Char} (h : ∀ c ∈ digits, isHexDigit c = true) :
    ∃ values, HexValues digits values :=
  exists_hexValues_iff.mpr fun c hc => hexValue?_isSome_iff.mp (h c hc)

theorem isHexDigit_of_hexValues {digits : List Char} {values : List Nat}
    (h : HexValues digits values) : ∀ c ∈ digits, isHexDigit c = true :=
  fun c hc => hexValue?_isSome_iff.mpr (exists_hexValues_iff.mp ⟨values, h⟩ c hc)

theorem byteLength_hexDigits {digits : List Char} (h : ∀ c ∈ digits, isHexDigit c = true) :
    byteLength digits = digits.length :=
  byteLength_of_ascii fun c hc => toNat_lt_of_isAscii isAscii_isHexDigit (h c hc)

theorem foldl_hexValues_lt {values : List Nat} (h : ∀ value ∈ values, value < 16) (n : Nat) :
    values.foldl (fun n value => 16 * n + value) n < (n + 1) * 16 ^ values.length := by
  induction values generalizing n with
  | nil => simp
  | cons value values ih =>
    have hvalue := h value List.mem_cons_self
    calc (value :: values).foldl (fun n value => 16 * n + value) n
        < (16 * n + value + 1) * 16 ^ values.length :=
          ih (fun v hv => h v (List.mem_cons_of_mem value hv)) (16 * n + value)
      _ ≤ (n + 1) * 16 * 16 ^ values.length := Nat.mul_le_mul_right _ (by omega)
      _ = (n + 1) * 16 ^ (value :: values).length := by
          rw [List.length_cons, Nat.pow_succ', Nat.mul_assoc]

theorem hexNumber?_eq {digits : List Char} {values : List Nat} (h : HexValues digits values)
    (hne : digits ≠ []) {bound : Nat} (hbound : 16 ^ values.length ≤ bound) :
    hexNumber? bound digits = some (values.foldl (fun n value => 16 * n + value) 0) := by
  have hplus : afterPlus digits = digits := by
    unfold afterPlus
    split
    · exact absurd (isHexDigit_of_hexValues h '+' List.mem_cons_self) (by decide)
    · rfl
  have hlt := foldl_hexValues_lt h.lt 0
  rw [hexNumber?, hplus, if_neg (by simpa using hne), mapM_hexValue?_eq_some_iff.mpr h,
    Option.bind_some, if_pos (by omega)]

/-! ## Escapes -/

/-- What a backslash stands for, given the text after it. -/
def readEscape : List Char → Sliced (Option (Char × List Char))
  | [] => pure none
  | c :: rest =>
    if isHexDigit c then do
      let count := ((rest.take 5).takeWhile isHexDigit).length
      let digits ← takeTo rest count
      match hexNumber? 0x100000000 (c :: digits) with
      | none => pure none
      | some code => do
        let rest ← dropTo rest count
        pure (some (charOfCode code, dropSpace rest))
    else pure (some (c, rest))

theorem readHex_eq {limit : Nat} {text : List Char} {values : List Nat}
    (h : HexValues ((text.take limit).takeWhile isHexDigit) values) (code : Nat) :
    readHex limit code text =
      (values.foldl (fun n value => 16 * n + value) code, text.drop values.length) := by
  induction limit generalizing text values code with
  | zero =>
    obtain rfl : values = [] := List.forall₂_nil_left_iff.mp h
    rfl
  | succ limit ih =>
    cases text with
    | nil =>
      obtain rfl : values = [] := List.forall₂_nil_left_iff.mp h
      rfl
    | cons c rest =>
      rw [List.take_succ_cons, List.takeWhile_cons] at h
      rw [readHex]
      cases hdigit : hexValue? c with
      | none =>
        rw [if_neg (by simp [isHexDigit, hdigit])] at h
        obtain rfl : values = [] := List.forall₂_nil_left_iff.mp h
        rfl
      | some digit =>
        rw [if_pos (by simp [isHexDigit, hdigit])] at h
        obtain ⟨value, others, hvalue, hothers, rfl⟩ := List.forall₂_cons_left_iff.mp h
        obtain rfl : digit = value := Option.some.inj (hdigit.symm.trans hvalue)
        exact ih hothers (16 * code + digit)

theorem exists_hexRun (limit : Nat) (text : List Char) : ∃ digits more values,
    (text.take limit).takeWhile isHexDigit = digits ∧ text = digits ++ more ∧
      HexValues digits values ∧ values.length ≤ limit := by
  obtain ⟨more, hmore⟩ : (text.take limit).takeWhile isHexDigit <+: text :=
    (List.takeWhile_prefix _).trans (List.take_prefix limit text)
  obtain ⟨values, hvalues⟩ := exists_hexValues_of_all fun d hd => List.mem_takeWhile_imp hd
  refine ⟨_, more, values, rfl, hmore.symm, hvalues, ?_⟩
  rw [← hvalues.length_eq]
  exact (List.takeWhile_prefix _).length_le.trans (List.length_take_le limit text)

/-- **Reading an escape takes no slice that cannot be taken**, although the count of its digits is a
count of characters: the digits have one byte each. Their number fits. -/
theorem readEscape_eq (text : List Char) :
    readEscape text = pure (ComputedCss.readEscape text) := by
  cases text with
  | nil => rfl
  | cons c rest =>
    rw [readEscape, ComputedCss.readEscape]
    cases hvalue : hexValue? c with
    | none => rw [if_neg (by simp [isHexDigit, hvalue])]
    | some value =>
      obtain ⟨digits, more, values, hdigits, hmore, hvalues, hlength⟩ := exists_hexRun 5 rest
      have hnumber : hexNumber? 0x100000000 (c :: digits) =
          some ((value :: values).foldl (fun n value => 16 * n + value) 0) :=
        hexNumber?_eq (.cons hvalue hvalues) (by simp)
          ((Nat.pow_le_pow_right (by decide) (Nat.succ_le_succ hlength)).trans (by decide))
      have hfold : (value :: values).foldl (fun n value => 16 * n + value) 0 =
          values.foldl (fun n value => 16 * n + value) value := by
        rw [List.foldl_cons, Nat.mul_zero, Nat.zero_add]
      have htake := takeTo_append digits more
      have hdrop := dropTo_append digits more
      rw [← hmore, byteLength_hexDigits (isHexDigit_of_hexValues hvalues)] at htake hdrop
      rw [if_pos (by simp [isHexDigit, hvalue])]
      dsimp only
      rw [readHex_eq (hdigits ▸ hvalues), hdigits, htake, pure_bind, hnumber, hfold]
      dsimp only
      rw [hdrop, pure_bind, ← hvalues.length_eq, hmore, List.drop_left]

/-! ## Strings -/

/-- The characters up to the closing quote, and the text after it. -/
def readQuoted (quote : Char) (text : List Char) : Sliced (Option (List Char × List Char)) :=
  match text with
  | [] => pure none
  | c :: rest =>
    if c == quote then pure (some ([], rest))
    else if c == '\\' then
      match _h : readEscape rest with
      | .ok (some (c, rest')) =>
        Option.map (fun (cs, rest) => (c :: cs, rest)) <$> readQuoted quote rest'
      | .ok none => pure none
      | .error fault => throw fault
    else Option.map (fun (cs, rest) => (c :: cs, rest)) <$> readQuoted quote rest
termination_by text.length
decreasing_by
  · rw [readEscape_eq] at _h
    have hshorter := length_lt_of_readEscape (Except.ok.inj _h)
    simp only [List.length_cons]
    omega
  · simp

/-- Decodes a string with its quotes, after the position behind its opening quote. -/
def readString (quote : Char) (text : List Char) : Sliced (Except Fault String) := do
  let body ← dropTo text quote.utf8Size
  match ← readQuoted quote body with
  | none => pure (.error .unterminatedString)
  | some (cs, []) => pure (.ok (String.ofList cs))
  | some _ => pure (.error .textAfterString)

theorem readQuoted_eq (quote : Char) (text : List Char) :
    readQuoted quote text = pure (ComputedCss.readQuoted quote text) := by
  induction text using ComputedCss.readQuoted.induct quote with
  | case1 => rw [readQuoted, ComputedCss.readQuoted]
  | case2 c rest hclose =>
    obtain rfl := eq_of_beq hclose
    rw [readQuoted, if_pos hclose, readQuoted_close]
  | case3 c rest hclose hescape d rest' hread ih =>
    obtain rfl := eq_of_beq hescape
    have hquote : quote ≠ '\\' := fun h => hclose (beq_iff_eq.mpr h.symm)
    have hsliced : readEscape rest = .ok (some (d, rest')) :=
      (readEscape_eq rest).trans (congrArg Except.ok hread)
    rw [readQuoted, if_neg hclose, if_pos hescape, readQuoted_escape hquote hread]
    split <;> rename_i heq <;> rw [hsliced] at heq <;> cases heq
    rw [ih, map_pure]
  | case4 c rest hclose hescape hread =>
    obtain rfl := eq_of_beq hescape
    have hquote : quote ≠ '\\' := fun h => hclose (beq_iff_eq.mpr h.symm)
    have hsliced : readEscape rest = .ok none :=
      (readEscape_eq rest).trans (congrArg Except.ok hread)
    rw [readQuoted, if_neg hclose, if_pos hescape, readQuoted_of_readEscape_eq_none hquote hread]
    split <;> rename_i heq <;> rw [hsliced] at heq <;> cases heq
  | case5 c rest hclose hescape ih =>
    rw [readQuoted, if_neg hclose, if_neg hescape, ih, map_pure,
      readQuoted_cons (by simpa using hclose) (by simpa using hescape)]

/-- **Decoding a string takes no slice that cannot be taken.** -/
theorem readString_eq (quote : Char) (rest : List Char) :
    readString quote (quote :: rest) = pure (ComputedCss.readString quote rest) := by
  have hbody := dropTo_append [quote] rest
  rw [byteLength_cons, byteLength_nil, Nat.add_zero, List.singleton_append] at hbody
  rw [readString, hbody, pure_bind, readQuoted_eq, pure_bind, ComputedCss.readString]
  rcases ComputedCss.readQuoted quote rest with _ | ⟨cs, _ | ⟨c, more⟩⟩ <;> rfl

/-! ## Hexadecimal colours -/

/-- The byte of the digit at a position, which stands for two. -/
def shortByte (digits : List Char) (i : Nat) : OptionT Sliced UInt8 := do
  let digit ← slice digits i (i + 1)
  OptionT.mk (pure ((hexNumber? 256 (digit ++ digit)).map Nat.toUInt8))

/-- The byte of the two digits from a position on. -/
def longByte (digits : List Char) (i : Nat) : OptionT Sliced UInt8 := do
  let pair ← slice digits i (i + 2)
  OptionT.mk (pure ((hexNumber? 256 pair).map Nat.toUInt8))

/-- The colour of as many bytes of digits. -/
def colorOfDigits (digits : List Char) : OptionT Sliced Color :=
  match byteLength digits with
  | 3 => return Color.solid (← shortByte digits 0) (← shortByte digits 1) (← shortByte digits 2)
  | 4 => return ⟨← shortByte digits 0, ← shortByte digits 1, ← shortByte digits 2,
      ← shortByte digits 3⟩
  | 6 => return Color.solid (← longByte digits 0) (← longByte digits 2) (← longByte digits 4)
  | 8 => return ⟨← longByte digits 0, ← longByte digits 2, ← longByte digits 4,
      ← longByte digits 6⟩
  | _ => failure

/-- Reads a hexadecimal colour. -/
def ofHex? (text : String) : Sliced (Option Color) :=
  let digits := Color.afterSign text.toList
  if (utf8 digits).all (isHexDigit ∘ charOfByte) then (colorOfDigits digits).run else pure none

theorem hexNumber?_pair {digits : List Char} {high low : Nat} (h : HexValues digits [high, low]) :
    (hexNumber? 256 digits).map Nat.toUInt8 = some (Color.byteOfDigits high low) := by
  have hne : digits ≠ [] := by
    rintro rfl
    exact nomatch h
  have hbound : 16 ^ [high, low].length ≤ 256 := le_rfl
  rw [hexNumber?_eq h hne hbound]
  simp [Color.byteOfDigits]

variable {digits : List Char} {values : List Nat} {i : Nat}

theorem exists_slice {n value : Nat} {others : List Nat} (h : HexValues digits values)
    (hpart : (values.drop i).take n = value :: others) (hlength : others.length + 1 = n) :
    ∃ middle, slice digits i (i + n) = pure middle ∧ HexValues middle (value :: others) := by
  have hall := isHexDigit_of_hexValues h
  have hle : i + n ≤ digits.length := by
    have hcount := congrArg List.length hpart
    rw [List.length_take, List.length_drop, ← h.length_eq, List.length_cons] at hcount
    omega
  have hcut := slice_append (digits.take i) ((digits.drop i).take n) ((digits.drop i).drop n)
  rw [List.take_append_drop, List.take_append_drop, byteLength_append,
    byteLength_hexDigits fun c hc => hall c (List.mem_of_mem_take hc),
    byteLength_hexDigits fun c hc => hall c (List.mem_of_mem_drop (List.mem_of_mem_take hc)),
    List.length_take_of_le (by omega), List.length_take_of_le (by simp; omega)] at hcut
  exact ⟨_, hcut, hpart ▸ List.forall₂_take n (List.forall₂_drop i h)⟩

theorem shortByte_eq (h : HexValues digits values) {value : Nat}
    (hvalue : (values.drop i).take 1 = [value]) :
    shortByte digits i = pure (Color.byteOfDigits value value) := by
  obtain ⟨digit, hslice, hdigit⟩ := exists_slice h hvalue rfl
  rw [shortByte, hslice, liftM_pure, pure_bind, hexNumber?_pair (List.rel_append hdigit hdigit)]
  rfl

theorem longByte_eq (h : HexValues digits values) {high low : Nat}
    (hvalues : (values.drop i).take 2 = [high, low]) :
    longByte digits i = pure (Color.byteOfDigits high low) := by
  obtain ⟨pair, hslice, hpair⟩ := exists_slice h hvalues rfl
  rw [longByte, hslice, liftM_pure, pure_bind, hexNumber?_pair hpair]
  rfl

theorem colorOfDigits_eq (h : HexValues digits values) :
    (colorOfDigits digits).run = pure (Color.ofValues? values) := by
  rw [colorOfDigits, byteLength_hexDigits (isHexDigit_of_hexValues h), h.length_eq]
  cases hcolor : Color.ofValues? values with
  | none =>
    have hlength : values.length ∉ [3, 4, 6, 8] := by
      rw [← Color.exists_ofValues?_iff, hcolor]
      simp
    simp only [List.mem_cons, List.not_mem_nil, or_false, not_or] at hlength
    obtain ⟨hthree, hfour, hsix, height⟩ := hlength
    split <;> first | contradiction | rfl
  | some color =>
    unfold Color.ofValues? at hcolor
    split at hcolor
    case h_5 => exact nomatch hcolor
    all_goals
      obtain rfl := Option.some.inj hcolor
      dsimp only [List.length_cons, List.length_nil]
    · rw [shortByte_eq h rfl, shortByte_eq h rfl, shortByte_eq h rfl]
      rfl
    · rw [shortByte_eq h rfl, shortByte_eq h rfl, shortByte_eq h rfl, shortByte_eq h rfl]
      rfl
    · rw [longByte_eq h rfl, longByte_eq h rfl, longByte_eq h rfl]
      rfl
    · rw [longByte_eq h rfl, longByte_eq h rfl, longByte_eq h rfl, longByte_eq h rfl]
      rfl

/-- **Reading a hexadecimal colour takes no slice that cannot be taken.** -/
theorem ofHex?_eq (text : String) : ofHex? text = pure (Color.ofHex? text) := by
  rw [ofHex?, Color.ofHex?_eq, all_utf8 isAscii_isHexDigit]
  split_ifs with hall
  · obtain ⟨values, hvalues⟩ := exists_hexValues_of_all (List.all_eq_true.mp hall)
    rw [mapM_hexValue?_eq_some_iff.mpr hvalues, Option.bind_some, colorOfDigits_eq hvalues]
  · have hnone : (Color.afterSign text.toList).mapM hexValue? = none := by
      rw [Option.eq_none_iff_forall_ne_some]
      intro values hvalues
      have hdigits := isHexDigit_of_hexValues (mapM_hexValue?_eq_some_iff.mp hvalues)
      exact hall (List.all_eq_true.mpr hdigits)
    rw [hnone, Option.bind_none]

end ComputedCss.Slicing
