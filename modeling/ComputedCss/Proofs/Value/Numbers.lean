import ComputedCss.Proofs.Text.Joining
import ComputedCss.Proofs.Value.WellFormed
import ComputedCss.Value.Printer

/-!
# Numbers read back

A number with its type is written as the text of the number and the suffix of the type.

* `piece_numericText`: this is one piece of a list.
* `readNumeric_numericText`: a plain number that reads back reads back with its type, unless its unit
  starts like an exponent.
-/

namespace ComputedCss

open Text Reading

variable {ν : Type}

/-! ## Texts of numbers -/

/-- A character of a number that is written, finite or not. -/
def isNumberChar (c : Char) : Bool :=
  c.isAlphanum || c == '-' || c == '.'

/-- The texts of numbers are not empty and have no other characters. -/
structure IsNumberText (text : List Char) : Prop where
  ne_nil : text ≠ []
  isNumberChar : ∀ c ∈ text, isNumberChar c = true

theorem isNumberText_of_all {text : List Char} (hne : text ≠ [])
    (h : text.all ComputedCss.isNumberChar = true) : IsNumberText text :=
  ⟨hne, fun c hc => List.all_eq_true.mp h c hc⟩

theorem isNumberText_of_plain {text : List Char} (plain : PlainNumber text) : IsNumberText text := by
  refine ⟨plain.ne_nil, fun c hc => ?_⟩
  rcases plain.mem_cases hc with rfl | rfl | hdigit
  · decide
  · decide
  · simp [isNumberChar, Char.isAlphanum, hdigit]

theorem toNat_lt_of_isNumberChar {c : Char} (h : isNumberChar c = true) : c.toNat < 128 := by
  rw [isNumberChar, Char.isAlphanum, Bool.or_eq_true, Bool.or_eq_true, Bool.or_eq_true] at h
  rcases h with ((hletter | hdigit) | hhyphen) | hdot
  · rcases code_of_isAlpha hletter with ⟨-, hcode⟩ | ⟨-, hcode⟩ <;> omega
  · obtain ⟨-, hcode⟩ := code_of_isDigit hdigit
    omega
  · obtain rfl := eq_of_beq hhyphen
    decide
  · obtain rfl := eq_of_beq hdot
    decide

theorem plain_of_isNumberChar {c : Char} (h : isNumberChar c = true) :
    isPlain c = true ∧ isBreak c = false ∧ isBlank c = false := by
  have hall : ∀ n < 128, isNumberChar (Char.ofNat n) = true →
      isPlain (Char.ofNat n) = true ∧ isBreak (Char.ofNat n) = false ∧
        isBlank (Char.ofNat n) = false := by decide
  have hc := hall c.toNat (toNat_lt_of_isNumberChar h)
  rw [Char.ofNat_toNat] at hc
  exact hc h

/-! ## Suffixes -/

theorem suffix_cases {type : ValueType} (h : type.IsRead) :
    type.suffix.toList = [] ∨ type.suffix.toList = ['%'] ∨ isIdent type.suffix.toList = true := by
  cases type with
  | number => exact .inl rfl
  | percentage => exact .inr (.inl rfl)
  | dimension unit =>
    right; right
    cases unit <;> decide
  | unknownDimension unit => exact .inr (.inr h.isIdent)
  | _ => exact absurd h id

theorem endsDigits_suffix {type : ValueType} (h : type.IsRead) :
    Numeral.EndsDigits type.suffix.toList := by
  intro c hc
  rcases suffix_cases h with hsuffix | hsuffix | hident
  · rw [hsuffix] at hc
    exact absurd hc (by simp)
  · rw [hsuffix] at hc
    obtain rfl : '%' = c := by simpa using hc
    decide
  · rcases isIdent_cases hident with ⟨d, rest, hsuffix, hd, -⟩ | ⟨d, rest, hsuffix, -⟩
    · rw [hsuffix] at hc
      obtain rfl : d = c := by simpa using hc
      refine ⟨not_isDigit_of_isIdentStart hd, ?_⟩
      rintro rfl
      exact absurd hd (by decide)
    · rw [hsuffix] at hc
      obtain rfl : '-' = c := by simpa using hc
      decide

theorem readSuffix_of_isIdent {suffix : List Char} (h : isIdent suffix = true) :
    ∃ noted, readSuffix suffix = some noted ∧
      noted.value = match Dimension.ofName? (String.ofList suffix) with
        | some unit => .dimension unit
        | none => .unknownDimension (String.ofList suffix).toLower := by
  unfold readSuffix
  split
  · exact absurd h (by decide)
  · exact absurd h (by decide)
  · rw [if_pos h]
    dsimp only
    cases Dimension.ofName? (String.ofList suffix) with
    | some unit => exact ⟨_, rfl, rfl⟩
    | none => exact ⟨_, rfl, rfl⟩

theorem readSuffix_suffix {type : ValueType} (h : type.IsRead) :
    ∃ noted, readSuffix type.suffix.toList = some noted ∧ noted.value = type := by
  cases type with
  | number => exact ⟨_, rfl, rfl⟩
  | percentage => exact ⟨_, rfl, rfl⟩
  | dimension unit =>
    have hident : isIdent unit.name.toList = true := by cases unit <;> decide
    obtain ⟨noted, hnoted, hvalue⟩ := readSuffix_of_isIdent hident
    rw [String.ofList_toList, Dimension.ofName?_name] at hvalue
    exact ⟨noted, hnoted, hvalue⟩
  | unknownDimension unit =>
    obtain ⟨noted, hnoted, hvalue⟩ := readSuffix_of_isIdent h.isIdent
    rw [String.ofList_toList, h.unknown, h.lower] at hvalue
    exact ⟨noted, hnoted, hvalue⟩
  | _ => exact absurd h id

/-! ## Numbers with suffixes -/

/-- A unit that starts like an exponent would become part of the number. -/
def ValueType.Detached (type : ValueType) : Prop :=
  ∀ unit, type = .unknownDimension unit → Numeral.startsExponent unit.toList = false

theorem splitExponent_suffix {type : ValueType} (h : type.IsRead) (hdetached : type.Detached) :
    Numeral.splitExponent type.suffix.toList = (0, type.suffix.toList) := by
  cases type with
  | number => rfl
  | percentage => rfl
  | dimension unit => cases unit <;> decide
  | unknownDimension unit =>
    have hplus : '+' ∉ unit.toList := by
      intro hmem
      exact absurd (isIdentPart_of_isIdent h.isIdent _ hmem) (by decide)
    have hcapital : 'E' ∉ unit.toList := by
      intro hmem
      rw [← h.lower, toList_toLower] at hmem
      obtain ⟨c, -, hc⟩ := List.mem_map.mp hmem
      rcases toLower_cases c with hsame | ⟨n, hn, -, hlower⟩
      · rw [hsame] at hc
        subst hc
        exact absurd hsame (by decide)
      · have hall : ∀ n < 26, Char.ofNat (97 + n) ≠ 'E' := by decide
        exact hall n hn (hlower ▸ hc)
    exact Numeral.splitExponent_of_not_startsExponent hplus hcapital (hdetached unit rfl)
  | _ => exact absurd h id

variable [Scalar ν]

theorem toList_numericText (x : ν) (type : ValueType) :
    (numericText x type).toList = (Scalar.text x).toList ++ type.suffix.toList :=
  String.toList_append

theorem piece_numericText {x : ν} {type : ValueType} (hx : IsNumberText (Scalar.text x).toList)
    (htype : type.IsRead) : Piece (numericText x type).toList := by
  rw [toList_numericText]
  have hlast : ∀ c ∈ type.suffix.toList.getLast?, isBlank c = false := by
    cases type with
    | number => simp [ValueType.suffix]
    | percentage =>
      intro c hc
      obtain rfl : '%' = c := by simpa [ValueType.suffix] using hc
      decide
    | dimension unit =>
      have htrimmed : Trimmed unit.name.toList := trimmed_of_all (by cases unit <;> decide)
      exact htrimmed.last
    | unknownDimension unit => exact htype.last
    | _ => exact absurd htype id
  have hhead : ∀ c ∈ (Scalar.text x).toList, isBlank c = false := fun c hc =>
    (plain_of_isNumberChar (hx.isNumberChar c hc)).2.2
  refine ⟨by simp [hx.ne_nil], ?_, ?_⟩
  · by_cases hnil : type.suffix.toList = []
    · rw [hnil, List.append_nil]
      exact trimmed_of_forall hhead
    · exact Trimmed.append hx.ne_nil hnil (fun c hc => hhead c (List.mem_of_mem_head? hc)) hlast
  · apply uncut_of_isPlain
    intro c hc
    rcases List.mem_append.mp hc with hc | hc
    · obtain ⟨hplain, hbreak, -⟩ := plain_of_isNumberChar (hx.isNumberChar c hc)
      exact ⟨hplain, hbreak⟩
    · rcases suffix_cases htype with hsuffix | hsuffix | hident
      · rw [hsuffix] at hc
        exact absurd hc (by simp)
      · rw [hsuffix] at hc
        obtain rfl : c = '%' := by simpa using hc
        decide
      · have hpart := isIdentPart_of_isIdent hident c hc
        exact ⟨isPlain_of_isIdentPart hpart, isBreak_of_isIdentPart hpart⟩

/-- Scanning the text of a number gives the number back. -/
def ReadsBack (x : ν) : Prop :=
  ∃ numeral, Numeral.scan (Scalar.text x).toList = some (numeral, []) ∧
    (Scalar.ofNumeral numeral == x) = true

theorem readNumeric_numericText {x : ν} {type : ValueType}
    (plain : PlainNumber (Scalar.text x).toList) (hx : ReadsBack x) (htype : type.IsRead)
    (hdetached : type.Detached) :
    ∃ y, result (readNumeric (numericText x type).toList) = .ok (y, type) ∧ (y == x) = true := by
  obtain ⟨numeral, hscan, hback⟩ := hx
  obtain ⟨noted, hnoted, hvalue⟩ := readSuffix_suffix htype
  have hend : Numeral.EndsDigits [] := by simp [Numeral.EndsDigits]
  have halone := Numeral.scan_plain plain hend
  rw [List.append_nil, hscan] at halone
  obtain ⟨rfl, -⟩ : numeral = _ ∧ _ := by simpa using halone
  have hfull := Numeral.scan_plain plain (endsDigits_suffix htype)
  rw [splitExponent_suffix htype hdetached] at hfull
  refine ⟨_, ?_, hback⟩
  rw [toList_numericText, result_readNumeric_eq_ok]
  exact ⟨_, _, noted, hfull, hnoted, hvalue, rfl⟩

end ComputedCss
