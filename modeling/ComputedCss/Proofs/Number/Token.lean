import Mathlib.Data.List.Infix
import Mathlib.Data.List.TakeWhile
import ComputedCss.Number.Scalar

/-!
# Number tokens

A plain number is a sign or none, digits, and a point with more digits or none. It is what a finite
number is written as.

* `scan_plain`: before a text that neither continues the digits nor the fraction, the scanner takes
  all of a plain number and then looks for an exponent in that text.
* `startsNumber_append`: a text that begins with a plain number starts a number token.
-/

namespace ComputedCss

/-- `-? digit+ ('.' digit+)?` -/
structure PlainNumber (text : List Char) where
  negative : Bool
  whole : List Char
  fraction : List Char
  whole_ne_nil : whole ≠ []
  isDigit_whole : ∀ c ∈ whole, c.isDigit = true
  isDigit_fraction : ∀ c ∈ fraction, c.isDigit = true
  text_eq : text = (if negative then ['-'] else []) ++ (whole ++
    (if fraction = [] then [] else '.' :: fraction))

namespace Numeral

/-- The text does not continue the digits of a number or its fraction. -/
def EndsDigits (text : List Char) : Prop :=
  ∀ c ∈ text.head?, c.isDigit = false ∧ c ≠ '.'

theorem splitDigits_append {digits rest : List Char} (hdigits : ∀ c ∈ digits, c.isDigit = true)
    (hrest : ∀ c ∈ rest.head?, c.isDigit = false) :
    splitDigits (digits ++ rest) = (digits, rest) := by
  have htake : rest.takeWhile Char.isDigit = [] := by
    cases rest with
    | nil => rfl
    | cons c rest => simp [hrest c rfl]
  have hdrop : rest.dropWhile Char.isDigit = rest := by
    cases rest with
    | nil => rfl
    | cons c rest => simp [hrest c rfl]
  rw [splitDigits, List.takeWhile_append_of_pos hdigits, List.dropWhile_append_of_pos hdigits, htake,
    hdrop, List.append_nil]

theorem splitFraction_eq_nil {text : List Char} (h : ∀ c ∈ text.head?, c ≠ '.') :
    splitFraction text = ([], text) := by
  cases text with
  | nil => rfl
  | cons c rest =>
    have hc : c ≠ '.' := h c rfl
    simp [splitFraction, hc]

theorem splitFraction_append {digits rest : List Char} (hne : digits ≠ [])
    (hdigits : ∀ c ∈ digits, c.isDigit = true) (hrest : ∀ c ∈ rest.head?, c.isDigit = false) :
    splitFraction ('.' :: (digits ++ rest)) = (digits, rest) := by
  simp only [splitFraction, splitDigits_append hdigits hrest]
  simp [hne]

theorem unsigned_of_isDigit {c : Char} (hc : c.isDigit = true) : c ≠ '+' ∧ c ≠ '-' := by
  constructor
  · rintro rfl
    exact absurd hc (by decide)
  · rintro rfl
    exact absurd hc (by decide)

theorem splitSign_of_isDigit {c : Char} (hc : c.isDigit = true) (rest : List Char) :
    splitSign (c :: rest) = (false, c :: rest) := by
  obtain ⟨hplus, hminus⟩ := unsigned_of_isDigit hc
  simp [splitSign, hplus, hminus]

theorem splitSign_append (negative : Bool) {digits : List Char} (rest : List Char)
    (hne : digits ≠ []) (hdigits : ∀ c ∈ digits, c.isDigit = true) :
    splitSign ((if negative then ['-'] else []) ++ (digits ++ rest)) =
      (negative, digits ++ rest) := by
  cases negative with
  | true => rfl
  | false =>
    cases digits with
    | nil => exact absurd rfl hne
    | cons c digits => exact splitSign_of_isDigit (hdigits c List.mem_cons_self) (digits ++ rest)

theorem splitFraction_plain {fraction rest : List Char}
    (hdigits : ∀ c ∈ fraction, c.isDigit = true) (hrest : EndsDigits rest) :
    splitFraction ((if fraction = [] then [] else '.' :: fraction) ++ rest) = (fraction, rest) := by
  by_cases hnil : fraction = []
  · rw [if_pos hnil, List.nil_append, hnil]
    exact splitFraction_eq_nil fun c hc => (hrest c hc).2
  · rw [if_neg hnil, List.cons_append]
    exact splitFraction_append hnil hdigits fun c hc => (hrest c hc).1

theorem not_isDigit_fraction (fraction : List Char) {rest : List Char} (hrest : EndsDigits rest) :
    ∀ c ∈ ((if fraction = [] then [] else '.' :: fraction) ++ rest).head?, c.isDigit = false := by
  intro c hc
  by_cases hnil : fraction = []
  · rw [if_pos hnil] at hc
    exact (hrest c hc).1
  · rw [if_neg hnil] at hc
    obtain rfl : '.' = c := by simpa using hc
    decide

theorem scan_plain {text : List Char} (plain : PlainNumber text) {rest : List Char}
    (hrest : EndsDigits rest) :
    scan (text ++ rest) =
      some (ofParts plain.negative plain.whole plain.fraction (splitExponent rest).1,
        (splitExponent rest).2) := by
  obtain ⟨negative, whole, fraction, hne, hwhole, hfraction, rfl⟩ := plain
  have hpoint := not_isDigit_fraction fraction hrest
  simp only [scan, List.append_assoc, splitSign_append negative _ hne hwhole,
    splitDigits_append hwhole hpoint, splitFraction_plain hfraction hrest]
  simp [hne]

/-! ### What is left of a text -/

theorem splitSign_suffix (text : List Char) : (splitSign text).2 <:+ text := by
  unfold splitSign
  split
  · exact List.suffix_cons '+' _
  · exact List.suffix_cons '-' _
  · exact List.suffix_refl _

theorem splitDigits_suffix (text : List Char) : (splitDigits text).2 <:+ text :=
  List.dropWhile_suffix Char.isDigit

theorem splitFraction_suffix (text : List Char) : (splitFraction text).2 <:+ text := by
  unfold splitFraction
  split
  · rename_i rest
    dsimp only
    split
    · exact List.suffix_refl _
    · exact (splitDigits_suffix rest).trans (List.suffix_cons '.' rest)
  · exact List.suffix_refl _

theorem splitExponent_suffix (text : List Char) : (splitExponent text).2 <:+ text := by
  unfold splitExponent
  split
  · rename_i c rest
    have hrest : (splitDigits (splitSign rest).2).2 <:+ c :: rest :=
      ((splitDigits_suffix _).trans (splitSign_suffix rest)).trans (List.suffix_cons c rest)
    dsimp only
    by_cases he : (c == 'e' || c == 'E') = true
    · rw [if_pos he]
      by_cases hdigits : (splitDigits (splitSign rest).2).1.isEmpty = true
      · rw [if_pos hdigits]
      · rw [if_neg hdigits]
        exact hrest
    · rw [if_neg he]
  · exact List.suffix_refl _

theorem suffix_of_scan {text rest : List Char} {numeral : Numeral}
    (h : scan text = some (numeral, rest)) : rest <:+ text := by
  simp only [scan] at h
  split at h
  · exact absurd h (by simp)
  · obtain ⟨-, rfl⟩ : _ ∧ _ = rest := by simpa using h
    exact (splitExponent_suffix _).trans ((splitFraction_suffix _).trans
      ((splitDigits_suffix _).trans (splitSign_suffix text)))

theorem splitExponent_eq_self {text : List Char} (h : ∀ c ∈ text.head?, c ≠ 'e' ∧ c ≠ 'E') :
    splitExponent text = (0, text) := by
  cases text with
  | nil => rfl
  | cons c rest =>
    obtain ⟨he, hE⟩ := h c rfl
    simp [splitExponent, he, hE]

/-! ### Exponents -/

/-- Whether a text starts with an exponent that has no plus sign: an `e`, at most a hyphen, and a
digit. -/
def startsExponent : List Char → Bool
  | 'e' :: '-' :: c :: _ => c.isDigit
  | 'e' :: c :: _ => c.isDigit
  | _ => false

theorem splitDigits_eq_nil {text : List Char} (h : ∀ c ∈ text.head?, c.isDigit = false) :
    splitDigits text = ([], text) := by
  have hnone : ∀ c ∈ ([] : List Char), c.isDigit = true := by simp
  exact splitDigits_append hnone h

theorem splitExponent_of_not_startsExponent {text : List Char}
    (hplus : '+' ∉ text) (hcapital : 'E' ∉ text) (h : startsExponent text = false) :
    splitExponent text = (0, text) := by
  cases text with
  | nil => rfl
  | cons c rest =>
    have hE : c ≠ 'E' := fun hc => hcapital (hc ▸ List.mem_cons_self)
    by_cases he : c = 'e'
    · subst he
      have hdigits : (splitDigits (splitSign rest).2).1 = [] := by
        cases rest with
        | nil => rfl
        | cons d rest =>
          have hd : d ≠ '+' := fun hd => hplus (hd ▸ List.mem_cons_of_mem _ List.mem_cons_self)
          by_cases hminus : d = '-'
          · subst hminus
            have hrest : ∀ c ∈ rest.head?, c.isDigit = false := by
              intro c hc
              cases rest with
              | nil => exact absurd hc (by simp)
              | cons c' rest =>
                obtain rfl : c' = c := by simpa using hc
                exact h
            show (splitDigits rest).1 = []
            rw [splitDigits_eq_nil hrest]
          · have hsign : splitSign (d :: rest) = (false, d :: rest) := by
              simp [splitSign, hd, hminus]
            have hdigit : d.isDigit = false := by
              unfold startsExponent at h
              split at h
              · rename_i heq
                exact absurd (by simpa using (List.cons.inj (List.cons.inj heq).2).1) hminus
              · rename_i heq
                obtain ⟨rfl, -⟩ : d = _ ∧ _ := by simpa using heq
                exact h
              · rename_i hother
                exact absurd rfl (hother d rest)
            rw [hsign, splitDigits_eq_nil (by simpa using hdigit)]
      simp [splitExponent, hdigits]
    · exact splitExponent_eq_self (by simp [he, hE])

theorem length_splitExponent_lt {text : List Char} (h : startsExponent text = true) :
    (splitExponent text).2.length < text.length := by
  unfold startsExponent at h
  split at h
  · rename_i c rest
    have hdigits : (splitDigits (c :: rest)).1 ≠ [] := by simp [splitDigits, h]
    have hle := (splitDigits_suffix (c :: rest)).length_le
    simp only [splitExponent, splitSign, List.length_cons] at hle ⊢
    simp [hdigits]
    omega
  · rename_i c rest _
    have hdigits : (splitDigits (c :: rest)).1 ≠ [] := by simp [splitDigits, h]
    have hle := (splitDigits_suffix (c :: rest)).length_le
    simp only [splitExponent, splitSign_of_isDigit h, List.length_cons] at hle ⊢
    simp [hdigits]
    omega
  · exact absurd h (by simp)

end Numeral

theorem startsNumber_of_isDigit {c : Char} (hc : c.isDigit = true) (rest : List Char) :
    startsNumber (c :: rest) = true := by
  obtain ⟨hplus, hminus⟩ := Numeral.unsigned_of_isDigit hc
  have hpoint : c ≠ '.' := by
    rintro rfl
    exact absurd hc (by decide)
  simp [startsNumber, hplus, hminus, hpoint, hc]

namespace PlainNumber

variable {text : List Char}

theorem startsNumber_append (plain : PlainNumber text) (rest : List Char) :
    startsNumber (text ++ rest) = true := by
  obtain ⟨negative, whole, fraction, hne, hwhole, -, rfl⟩ := plain
  cases whole with
  | nil => exact absurd rfl hne
  | cons c digits =>
    have hc : c.isDigit = true := hwhole c List.mem_cons_self
    cases negative with
    | false => exact startsNumber_of_isDigit hc _
    | true =>
      have hpoint : c ≠ '.' := by
        rintro rfl
        exact absurd hc (by decide)
      simp [startsNumber, hpoint, hc]

theorem mem_cases (plain : PlainNumber text) {c : Char} (hc : c ∈ text) :
    c = '-' ∨ c = '.' ∨ c.isDigit = true := by
  obtain ⟨negative, whole, fraction, -, hwhole, hfraction, rfl⟩ := plain
  rcases List.mem_append.mp hc with hc | hc
  · cases negative with
    | true => exact .inl (by simpa using hc)
    | false => exact absurd hc (by simp)
  · rcases List.mem_append.mp hc with hc | hc
    · exact .inr (.inr (hwhole c hc))
    · by_cases hnil : fraction = []
      · rw [if_pos hnil] at hc
        exact absurd hc (by simp)
      · rw [if_neg hnil] at hc
        rcases List.mem_cons.mp hc with hc | hc
        · exact .inr (.inl hc)
        · exact .inr (.inr (hfraction c hc))

theorem ne_nil (plain : PlainNumber text) : text ≠ [] := by
  obtain ⟨negative, whole, fraction, hne, -, -, rfl⟩ := plain
  cases negative <;> simp [hne]

theorem head_cases (plain : PlainNumber text) {c : Char} (hc : c ∈ text.head?) :
    c = '-' ∨ c.isDigit = true := by
  obtain ⟨negative, whole, fraction, hne, hwhole, -, rfl⟩ := plain
  cases whole with
  | nil => exact absurd rfl hne
  | cons d digits =>
    cases negative with
    | true => exact .inl (by simpa [eq_comm] using hc)
    | false =>
      obtain rfl : d = c := by simpa using hc
      exact .inr (hwhole d List.mem_cons_self)

end PlainNumber

end ComputedCss
