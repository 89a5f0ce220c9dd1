import Mathlib.Computability.Language
import ComputedCss.Number.Double
import ComputedCss.Proofs.Value.ReadBack

/-!
# The longest number token

A number token is a sign or none, a mantissa, and an exponent or none. The scanner takes the longest
number token that stands at the front of a text, and the rest of the text decides what the number
is.

* `numberToken`: the grammar of number tokens, as a language.
* `exists_token_of_scan`: what is scanned is a number token, and its numeral is the one that the
  token alone says.
* `scan_of_token`: in front of any text, a number token is scanned at least.
* `scan_eq_some_iff`, `isSome_scan_iff`: the scanner takes the longest token, if there is one.
* `longest_number_read`: so does the reading of a component.
-/

namespace ComputedCss

open Text Reading

/-! ## The grammar -/

namespace NumberToken

/-- A sign. -/
def sign : Language Char := {['+'], ['-']}

/-- One digit or more. -/
def digitRun : Language Char := {text | text ≠ [] ∧ ∀ c ∈ text, c.isDigit = true}

/-- The point in front of a fraction. -/
def point : Language Char := {['.']}

/-- The letter in front of an exponent. -/
def mark : Language Char := {['e'], ['E']}

/-- `digit+ ('.' digit+)? | '.' digit+` -/
def mantissa : Language Char := digitRun * (1 + point * digitRun) + point * digitRun

/-- `[eE] [+-]? digit+` -/
def exponentPart : Language Char := mark * (1 + sign) * digitRun

end NumberToken

/-- `[+-]? (digit+ ('.' digit+)? | '.' digit+) ([eE] [+-]? digit+)?` -/
def numberToken : Language Char :=
  (1 + NumberToken.sign) * NumberToken.mantissa * (1 + NumberToken.exponentPart)

/-- The longest number token at the front of a text. -/
structure IsLongestToken (front text : List Char) : Prop where
  token : front ∈ numberToken
  isPrefix : front <+: text
  longest : ∀ other, other <+: text → other ∈ numberToken → other <+: front

theorem IsLongestToken.unique {front front' text : List Char} (h : IsLongestToken front text)
    (h' : IsLongestToken front' text) : front = front' :=
  (h'.longest front h.isPrefix h.token).eq_of_length_le
    (h.longest front' h'.isPrefix h'.token).length_le

namespace NumberToken

variable {text : List Char}

/-- The digits of a fraction with the point in front of them. -/
abbrev pointed (fraction : List Char) : List Char :=
  if fraction = [] then [] else '.' :: fraction

theorem pointed_of_ne {fraction : List Char} (h : fraction ≠ []) :
    pointed fraction = '.' :: fraction := if_neg h

theorem mem_optional {l : Language Char} : text ∈ 1 + l ↔ text = [] ∨ text ∈ l := Iff.rfl

theorem mem_mark : text ∈ mark ↔ text = ['e'] ∨ text = ['E'] := Iff.rfl

theorem mem_fraction : text ∈ point * digitRun ↔ ∃ ds ∈ digitRun, text = '.' :: ds := by
  rw [Language.mem_mul]
  constructor
  · rintro ⟨_, rfl, ds, hds, rfl⟩
    exact ⟨ds, hds, rfl⟩
  · rintro ⟨ds, hds, rfl⟩
    exact ⟨['.'], rfl, ds, hds, rfl⟩

theorem mem_mantissa : text ∈ mantissa ↔ ∃ whole fraction, (whole ≠ [] ∨ fraction ≠ []) ∧
    (∀ c ∈ whole, c.isDigit = true) ∧ (∀ c ∈ fraction, c.isDigit = true) ∧
    text = whole ++ pointed fraction := by
  have hnone : ∀ c ∈ ([] : List Char), c.isDigit = true := by simp
  rw [mantissa, Language.mem_add, Language.mem_mul]
  constructor
  · rintro (⟨whole, hwhole, f, hf, rfl⟩ | hpoint)
    · rcases mem_optional.mp hf with rfl | hpoint
      · exact ⟨whole, [], .inl hwhole.1, hwhole.2, hnone, rfl⟩
      · obtain ⟨fraction, hfraction, rfl⟩ := mem_fraction.mp hpoint
        exact ⟨whole, fraction, .inl hwhole.1, hwhole.2, hfraction.2, by rw [pointed_of_ne hfraction.1]⟩
    · obtain ⟨fraction, hfraction, rfl⟩ := mem_fraction.mp hpoint
      exact ⟨[], fraction, .inr hfraction.1, hnone, hfraction.2, (pointed_of_ne hfraction.1).symm⟩
  · rintro ⟨whole, fraction, hne, hwhole, hfraction, rfl⟩
    have hpointed : fraction ≠ [] → pointed fraction ∈ point * digitRun := fun hfne =>
      mem_fraction.mpr ⟨fraction, ⟨hfne, hfraction⟩, pointed_of_ne hfne⟩
    by_cases hwne : whole = []
    · subst hwne
      exact .inr (hpointed (hne.resolve_left (by simp)))
    · refine .inl ⟨whole, ⟨hwne, hwhole⟩, pointed fraction, mem_optional.mpr ?_, rfl⟩
      by_cases hfne : fraction = []
      · exact .inl (if_pos hfne)
      · exact .inr (hpointed hfne)

theorem mem_exponentPart : text ∈ exponentPart ↔ ∃ c s ds, (c = 'e' ∨ c = 'E') ∧ s ∈ 1 + sign ∧
    ds ∈ digitRun ∧ text = c :: (s ++ ds) := by
  simp only [exponentPart, Language.mem_mul, mem_mark]
  constructor
  · rintro ⟨_, ⟨_, rfl | rfl, s, hs, rfl⟩, ds, hds, rfl⟩
    · exact ⟨'e', s, ds, .inl rfl, hs, hds, rfl⟩
    · exact ⟨'E', s, ds, .inr rfl, hs, hds, rfl⟩
  · rintro ⟨c, s, ds, hc, hs, hds, rfl⟩
    exact ⟨c :: s, ⟨[c], by simpa using hc, s, hs, rfl⟩, ds, hds, rfl⟩

end NumberToken

namespace Numeral

open NumberToken

variable {text rest whole fraction : List Char} {numeral : Numeral}

/-! ## Mantissas -/

/-- The whole digits and the fraction at the front of a text, and the text after them. -/
def splitMantissa (text : List Char) : List Char × List Char × List Char :=
  ((splitDigits text).1, splitFraction (splitDigits text).2)

theorem scan_eq_some_iff_parts : scan text = some (numeral, rest) ↔
    ∃ whole fraction more, splitMantissa (splitSign text).2 = (whole, fraction, more) ∧
      (whole ≠ [] ∨ fraction ≠ []) ∧ (splitExponent more).2 = rest ∧
      ofParts (splitSign text).1 whole fraction (splitExponent more).1 = numeral := by
  simp only [scan, splitMantissa, Prod.mk.injEq]
  constructor
  · intro h
    split_ifs at h with hempty
    obtain ⟨hnumeral, hrest⟩ := Prod.mk.inj (Option.some.inj h)
    refine ⟨(splitDigits (splitSign text).2).1, (splitFraction (splitDigits (splitSign text).2).2).1,
      (splitFraction (splitDigits (splitSign text).2).2).2, ⟨rfl, rfl⟩, ?_, hrest, hnumeral⟩
    simpa [← not_and_or] using hempty
  · rintro ⟨whole, fraction, more, ⟨rfl, hfraction⟩, hne, rfl, rfl⟩
    rw [hfraction]
    exact if_neg (by simpa [← not_and_or] using hne)

theorem exists_digits (text : List Char) : ∃ ds more, splitDigits text = (ds, more) ∧
    text = ds ++ more ∧ (∀ c ∈ ds, c.isDigit = true) ∧ ∀ c ∈ more.head?, c.isDigit = false := by
  refine ⟨_, _, rfl, List.takeWhile_append_dropWhile.symm, fun c hc => List.mem_takeWhile_imp hc,
    fun c hc => ?_⟩
  have hhead := List.head?_dropWhile_not Char.isDigit text
  rw [Option.mem_def.mp hc] at hhead
  exact hhead

theorem splitDigits_append_digits {ds : List Char} (hds : ∀ c ∈ ds, c.isDigit = true)
    (rest : List Char) :
    splitDigits (ds ++ rest) = (ds ++ (splitDigits rest).1, (splitDigits rest).2) := by
  rw [splitDigits, List.takeWhile_append_of_pos hds, List.dropWhile_append_of_pos hds, splitDigits]

theorem splitFraction_append_digits {ds : List Char} (hds : ds ∈ digitRun) (rest : List Char) :
    splitFraction ('.' :: (ds ++ rest)) = (ds ++ (splitDigits rest).1, (splitDigits rest).2) := by
  simp only [splitFraction, splitDigits_append_digits hds.2]
  simp [hds.1]

theorem splitMantissa_append (hne : whole ≠ [] ∨ fraction ≠ [])
    (hwhole : ∀ c ∈ whole, c.isDigit = true) (hfraction : ∀ c ∈ fraction, c.isDigit = true)
    (rest : List Char) :
    ∃ whole' fraction' more, splitMantissa (whole ++ (pointed fraction ++ rest)) =
        (whole', fraction', more) ∧
      (whole' ≠ [] ∨ fraction' ≠ []) ∧ more <:+ rest := by
  rw [splitMantissa, splitDigits_append_digits hwhole]
  by_cases hnil : fraction = []
  · subst hnil
    refine ⟨_, _, _, rfl, .inl (by simp [hne.resolve_right (by simp)]), ?_⟩
    exact (splitFraction_suffix _).trans (splitDigits_suffix rest)
  · have hpoint : splitDigits ('.' :: (fraction ++ rest)) = ([], '.' :: (fraction ++ rest)) :=
      splitDigits_eq_nil (by simp)
    rw [pointed_of_ne hnil, List.cons_append, hpoint, splitFraction_append_digits ⟨hnil, hfraction⟩]
    exact ⟨_, _, _, rfl, .inr (by simp [hnil]), splitDigits_suffix rest⟩

theorem splitMantissa_exact (hwhole : ∀ c ∈ whole, c.isDigit = true)
    (hfraction : ∀ c ∈ fraction, c.isDigit = true) (hrest : EndsDigits rest) :
    splitMantissa (whole ++ (pointed fraction ++ rest)) = (whole, fraction, rest) := by
  rw [splitMantissa, splitDigits_append hwhole (not_isDigit_fraction fraction hrest),
    splitFraction_plain hfraction hrest]

theorem eq_of_splitFraction (text : List Char) :
    text = pointed (splitFraction text).1 ++ (splitFraction text).2 ∧
      ∀ c ∈ (splitFraction text).1, c.isDigit = true := by
  have hnone : text = pointed [] ++ text ∧ ∀ c ∈ ([] : List Char), c.isDigit = true := by simp
  unfold splitFraction
  split
  · rename_i more
    obtain ⟨ds, after, hsplit, htext, hds, -⟩ := exists_digits more
    rw [hsplit]
    dsimp only
    by_cases hempty : ds = []
    · rw [if_pos (by simp [hempty])]
      exact hnone
    · rw [if_neg (by simp [hempty])]
      refine ⟨?_, hds⟩
      rw [pointed_of_ne hempty, List.cons_append, htext]
  · exact hnone

theorem eq_of_splitMantissa {more : List Char}
    (h : splitMantissa text = (whole, fraction, more)) :
    text = whole ++ (pointed fraction ++ more) ∧ (∀ c ∈ whole, c.isDigit = true) ∧
      ∀ c ∈ fraction, c.isDigit = true := by
  obtain ⟨ds, after, hsplit, htext, hds, -⟩ := exists_digits text
  rw [splitMantissa, hsplit] at h
  obtain ⟨rfl, hfraction⟩ := Prod.mk.inj h
  obtain ⟨hafter, hdigits⟩ := eq_of_splitFraction after
  rw [hfraction] at hafter hdigits
  exact ⟨htext.trans (congrArg (ds ++ ·) hafter), hds, hdigits⟩

/-! ## Signs and exponents -/

theorem splitSign_append_of_mem {s : List Char} (hs : s ∈ 1 + sign)
    (hrest : ∀ c ∈ rest.head?, c ≠ '+' ∧ c ≠ '-') :
    splitSign (s ++ rest) = ((splitSign s).1, rest) := by
  rcases mem_optional.mp hs with rfl | rfl | rfl
  · cases rest with
    | nil => rfl
    | cons c rest =>
      obtain ⟨hplus, hminus⟩ := hrest c rfl
      simp [splitSign, hplus, hminus]
  · rfl
  · rfl

theorem exists_sign (text : List Char) : ∃ s ∈ 1 + sign, text = s ++ (splitSign text).2 ∧
    (splitSign s).1 = (splitSign text).1 := by
  unfold splitSign
  split
  · exact ⟨['+'], mem_optional.mpr (.inr (.inl rfl)), rfl, rfl⟩
  · exact ⟨['-'], mem_optional.mpr (.inr (.inr rfl)), rfl, rfl⟩
  · exact ⟨[], mem_optional.mpr (.inl rfl), rfl, rfl⟩

theorem unsigned_of_digits {ds : List Char} (hds : ds ∈ digitRun) (rest : List Char) :
    ∀ c ∈ (ds ++ rest).head?, c ≠ '+' ∧ c ≠ '-' := by
  intro c hc
  cases ds with
  | nil => exact absurd rfl hds.1
  | cons d ds =>
    obtain rfl : d = c := by simpa using hc
    exact unsigned_of_isDigit (hds.2 d List.mem_cons_self)

theorem exists_head_of_mantissa (hne : whole ≠ [] ∨ fraction ≠ [])
    (hwhole : ∀ c ∈ whole, c.isDigit = true) (rest : List Char) :
    ∃ c more, whole ++ (pointed fraction ++ rest) = c :: more ∧ (c.isDigit = true ∨ c = '.') := by
  cases whole with
  | nil =>
    rw [pointed_of_ne (hne.resolve_left (by simp))]
    exact ⟨'.', _, rfl, .inr rfl⟩
  | cons c whole => exact ⟨c, _, rfl, .inl (hwhole c List.mem_cons_self)⟩

theorem unsigned_of_mantissa (hne : whole ≠ [] ∨ fraction ≠ [])
    (hwhole : ∀ c ∈ whole, c.isDigit = true) (rest : List Char) :
    ∀ c ∈ (whole ++ (pointed fraction ++ rest)).head?, c ≠ '+' ∧ c ≠ '-' := by
  obtain ⟨c, more, htext, hc⟩ := exists_head_of_mantissa hne hwhole rest
  intro d hd
  obtain rfl : c = d := by simpa [htext] using hd
  rcases hc with hc | rfl
  · exact unsigned_of_isDigit hc
  · decide

theorem splitExponent_append {e : List Char} (he : e ∈ exponentPart) (rest : List Char) :
    (splitExponent (e ++ rest)).2 = (splitDigits rest).2 := by
  obtain ⟨c, s, ds, hc, hs, hds, rfl⟩ := mem_exponentPart.mp he
  have hmark : (c == 'e' || c == 'E') = true := by simpa using hc
  rw [List.cons_append, List.append_assoc]
  simp only [splitExponent, splitSign_append_of_mem hs (unsigned_of_digits hds rest),
    splitDigits_append_digits hds.2]
  simp [hmark, hds.1]

theorem endsDigits_of_exponent {e : List Char} (he : e ∈ exponentPart) (rest : List Char) :
    EndsDigits (e ++ rest) := by
  obtain ⟨c, s, ds, hc, -, -, rfl⟩ := mem_exponentPart.mp he
  intro d hd
  obtain rfl : c = d := by simpa using hd
  rcases hc with rfl | rfl <;> decide

theorem splitExponent_exact {c : Char} {s ds : List Char} (hc : c = 'e' ∨ c = 'E')
    (hs : s ∈ 1 + sign) (hds : ds ∈ digitRun) (hrest : ∀ d ∈ rest.head?, d.isDigit = false) :
    splitExponent (c :: (s ++ (ds ++ rest))) =
      (if (splitSign s).1 then -(digitsValue ds : Int) else digitsValue ds, rest) := by
  have hmark : (c == 'e' || c == 'E') = true := by simpa using hc
  simp only [splitExponent, splitSign_append_of_mem hs (unsigned_of_digits hds rest),
    splitDigits_append hds.2 hrest]
  simp [hmark, hds.1]

theorem exists_exponent (text : List Char) : ∃ e ∈ 1 + exponentPart,
    text = e ++ (splitExponent text).2 ∧ splitExponent e = ((splitExponent text).1, []) := by
  have hnone : splitExponent text = (0, text) → ∃ e ∈ 1 + exponentPart,
      text = e ++ (splitExponent text).2 ∧ splitExponent e = ((splitExponent text).1, []) := by
    intro h
    rw [h]
    exact ⟨[], mem_optional.mpr (.inl rfl), rfl, rfl⟩
  cases text with
  | nil => exact hnone rfl
  | cons c rest =>
    by_cases hc : c = 'e' ∨ c = 'E'
    · obtain ⟨s, hs, hrest, -⟩ := exists_sign rest
      obtain ⟨ds, more, hsplit, htext, hds, hmore⟩ := exists_digits (splitSign rest).2
      by_cases hempty : ds = []
      · exact hnone (by simp [splitExponent, hsplit, hempty])
      · have hrun : ds ∈ digitRun := ⟨hempty, hds⟩
        have halone : splitExponent (c :: (s ++ (ds ++ []))) = _ :=
          splitExponent_exact hc hs hrun (by simp)
        rw [List.append_nil] at halone
        rw [hrest, htext, splitExponent_exact hc hs hrun hmore]
        exact ⟨c :: (s ++ ds), mem_optional.mpr (.inr (mem_exponentPart.mpr
          ⟨c, s, ds, hc, hs, hrun, rfl⟩)), by simp, halone⟩
    · exact hnone (splitExponent_eq_self (by simpa using hc))

/-! ## Tokens -/

theorem mem_numberToken {token : List Char} : token ∈ numberToken ↔
    ∃ s whole fraction e, s ∈ 1 + sign ∧ (whole ≠ [] ∨ fraction ≠ []) ∧
      (∀ c ∈ whole, c.isDigit = true) ∧ (∀ c ∈ fraction, c.isDigit = true) ∧
      e ∈ 1 + exponentPart ∧ token = s ++ (whole ++ (pointed fraction ++ e)) := by
  simp only [numberToken, Language.mem_mul, mem_mantissa]
  constructor
  · rintro ⟨_, ⟨s, hs, _, ⟨whole, fraction, hne, hwhole, hfraction, rfl⟩, rfl⟩, e, he, rfl⟩
    exact ⟨s, whole, fraction, e, hs, hne, hwhole, hfraction, he, by simp only [List.append_assoc]⟩
  · rintro ⟨s, whole, fraction, e, hs, hne, hwhole, hfraction, he, rfl⟩
    exact ⟨_, ⟨s, hs, _, ⟨whole, fraction, hne, hwhole, hfraction, rfl⟩, rfl⟩, e, he,
      by simp only [List.append_assoc]⟩

theorem scan_of_token {token : List Char} (h : token ∈ numberToken) (more : List Char) :
    ∃ numeral rest, scan (token ++ more) = some (numeral, rest) ∧ rest <:+ more := by
  obtain ⟨s, whole, fraction, e, hs, hne, hwhole, hfraction, he, rfl⟩ := mem_numberToken.mp h
  have hsign : splitSign (s ++ (whole ++ (pointed fraction ++ (e ++ more)))) =
      ((splitSign s).1, whole ++ (pointed fraction ++ (e ++ more))) :=
    splitSign_append_of_mem hs (unsigned_of_mantissa hne hwhole _)
  simp only [List.append_assoc]
  rcases mem_optional.mp he with rfl | he
  · -- Without an exponent the mantissa may go on, and an exponent may follow.
    obtain ⟨whole', fraction', rest, hsplit, hne', hrest⟩ :=
      splitMantissa_append hne hwhole hfraction more
    refine ⟨_, _, scan_eq_some_iff_parts.mpr
      ⟨whole', fraction', rest, by rw [hsign]; exact hsplit, hne', rfl, rfl⟩, ?_⟩
    exact (splitExponent_suffix rest).trans hrest
  · have hsplit := splitMantissa_exact hwhole hfraction (endsDigits_of_exponent he more)
    refine ⟨_, _, scan_eq_some_iff_parts.mpr
      ⟨whole, fraction, e ++ more, by rw [hsign]; exact hsplit, hne, rfl, rfl⟩, ?_⟩
    rw [splitExponent_append he]
    exact splitDigits_suffix more

theorem exists_token_of_scan (h : scan text = some (numeral, rest)) :
    ∃ token ∈ numberToken, text = token ++ rest ∧ scan token = some (numeral, []) := by
  obtain ⟨whole, fraction, more, hsplit, hne, rfl, hnumeral⟩ := scan_eq_some_iff_parts.mp h
  obtain ⟨s, hs, htext, hsign⟩ := exists_sign text
  obtain ⟨hmantissa, hwhole, hfraction⟩ := eq_of_splitMantissa hsplit
  obtain ⟨e, he, hmore, hscale⟩ := exists_exponent more
  refine ⟨s ++ (whole ++ (pointed fraction ++ e)),
    mem_numberToken.mpr ⟨s, whole, fraction, e, hs, hne, hwhole, hfraction, he, rfl⟩, ?_, ?_⟩
  · calc text = s ++ (splitSign text).2 := htext
      _ = s ++ (whole ++ (pointed fraction ++ more)) := by rw [← hmantissa]
      _ = s ++ (whole ++ (pointed fraction ++ (e ++ (splitExponent more).2))) := by rw [← hmore]
      _ = s ++ (whole ++ (pointed fraction ++ e)) ++ (splitExponent more).2 := by
        simp only [List.append_assoc]
  · have hends : EndsDigits e := by
      rcases mem_optional.mp he with rfl | he
      · exact fun c hc => absurd hc (by simp)
      · have hdigits := endsDigits_of_exponent he []
        rwa [List.append_nil] at hdigits
    have halone := splitSign_append_of_mem hs (unsigned_of_mantissa hne hwhole e)
    rw [scan_eq_some_iff_parts, halone, hsign]
    exact ⟨whole, fraction, e, splitMantissa_exact hwhole hfraction hends, hne, by rw [hscale],
      by rw [hscale]; exact hnumeral⟩

theorem ofText?_of_scan (h : scan text = some (numeral, [])) : ofText? text = some numeral := by
  unfold scan at h
  unfold ofText?
  dsimp only at h ⊢
  generalize splitDigits (splitSign text).2 = split at h ⊢
  obtain ⟨whole, more⟩ := split
  dsimp only at h ⊢
  have hread : ∀ {fraction after}, splitFraction more = (fraction, after) →
      (if (whole.isEmpty && fraction.isEmpty) = true then none
        else if (splitExponent after).2.isEmpty = true then
          some (ofParts (splitSign text).1 whole fraction (splitExponent after).1)
        else none) = some numeral := by
    intro fraction after hsplit
    rw [hsplit] at h
    split_ifs at h with hempty
    obtain ⟨hnumeral, hend⟩ := Prod.mk.inj (Option.some.inj h)
    rw [if_neg hempty, hend, if_pos List.isEmpty_nil, hnumeral]
  cases more with
  | nil => exact hread rfl
  | cons c rest =>
    by_cases hc : c = '.'
    · subst hc
      by_cases hempty : (splitDigits rest).1.isEmpty = true
      · -- A point without digits is left alone, so the end is not reached.
        have hleft : splitFraction ('.' :: rest) = ([], '.' :: rest) := if_pos hempty
        rw [hleft] at h
        split_ifs at h
        obtain ⟨-, hend⟩ := Prod.mk.inj (Option.some.inj h)
        have hkept : splitExponent ('.' :: rest) = (0, '.' :: rest) :=
          splitExponent_eq_self (by simp)
        rw [hkept] at hend
        exact absurd hend (by simp)
      · exact hread (if_neg hempty)
    · have hleft : splitFraction (c :: rest) = ([], c :: rest) :=
        splitFraction_eq_nil (by simpa using hc)
      simpa [hc] using hread hleft

theorem isSome_scan_iff_digits : (scan text).isSome = true ↔
    (splitMantissa (splitSign text).2).1 ≠ [] ∨ (splitMantissa (splitSign text).2).2.1 ≠ [] := by
  rw [Option.isSome_iff_exists]
  constructor
  · rintro ⟨⟨numeral, rest⟩, h⟩
    obtain ⟨whole, fraction, more, hsplit, hne, -⟩ := scan_eq_some_iff_parts.mp h
    rw [hsplit]
    exact hne
  · intro h
    exact ⟨_, scan_eq_some_iff_parts.mpr ⟨_, _, _, rfl, h, rfl, rfl⟩⟩

theorem digits_ne_nil_iff {c : Char} : (splitDigits (c :: rest)).1 ≠ [] ↔ c.isDigit = true := by
  by_cases hc : c.isDigit = true <;> simp [splitDigits, hc]

theorem fraction_ne_nil_iff : (splitFraction ('.' :: rest)).1 ≠ [] ↔ (splitDigits rest).1 ≠ [] := by
  by_cases hempty : (splitDigits rest).1 = []
  · simp [splitFraction, hempty]
  · simp [splitFraction, hempty]

theorem startsNumber_signed_iff : startsNumber ('+' :: rest) = true ↔
    (splitMantissa rest).1 ≠ [] ∨ (splitMantissa rest).2.1 ≠ [] := by
  simp only [splitMantissa, startsNumber]
  split
  · rename_i c rest
    have hpoint : splitDigits ('.' :: c :: rest) = ([], '.' :: c :: rest) :=
      splitDigits_eq_nil (by simp)
    rw [hpoint, fraction_ne_nil_iff, digits_ne_nil_iff]
    simp
  · rename_i c rest hother
    rw [digits_ne_nil_iff]
    refine ⟨.inl, fun h => h.elim id fun hfraction => ?_⟩
    -- Without a digit in front there is a fraction only behind a point.
    by_contra hc
    rw [splitDigits_eq_nil (by simpa using hc)] at hfraction
    obtain rfl : c = '.' := by
      by_contra hpoint
      exact hfraction (by rw [splitFraction_eq_nil (by simpa using hpoint)])
    cases rest with
    | nil => exact hfraction rfl
    | cons d rest => exact hother d rest rfl rfl
  · simp [splitDigits, splitFraction]

theorem startsNumber_iff (text : List Char) :
    startsNumber text = true ↔ (scan text).isSome = true := by
  rw [isSome_scan_iff_digits]
  unfold startsNumber splitSign
  dsimp only
  -- What decides is the same with a plus, with a minus and without a sign.
  split
  · exact startsNumber_signed_iff
  · exact startsNumber_signed_iff
  · exact startsNumber_signed_iff

/-- **The scanner takes the longest number token at the front of a text.** -/
theorem scan_eq_some_iff : scan text = some (numeral, rest) ↔
    ∃ front, text = front ++ rest ∧ IsLongestToken front text ∧ ofText? front = some numeral := by
  have hsound : ∀ {numeral rest}, scan text = some (numeral, rest) →
      ∃ front, text = front ++ rest ∧ IsLongestToken front text ∧ ofText? front = some numeral := by
    intro numeral rest h
    obtain ⟨front, hfront, htext, halone⟩ := exists_token_of_scan h
    refine ⟨front, htext, ⟨hfront, ⟨rest, htext.symm⟩, ?_⟩, ofText?_of_scan halone⟩
    rintro other ⟨more, hother⟩ htoken
    -- The other token leaves at least what is left of the text.
    obtain ⟨numeral', rest', hscan, hsuffix⟩ := scan_of_token htoken more
    rw [hother, h] at hscan
    obtain ⟨-, rfl⟩ : numeral = numeral' ∧ rest = rest' := by simpa using hscan
    have hlength := congrArg List.length (hother.trans htext)
    simp only [List.length_append] at hlength
    have hle := hsuffix.length_le
    exact List.prefix_of_prefix_length_le ⟨more, hother⟩ ⟨rest, htext.symm⟩ (by omega)
  refine ⟨hsound, ?_⟩
  rintro ⟨front, htext, hlongest, hnumeral⟩
  obtain ⟨numeral', rest', hscan, -⟩ := scan_of_token hlongest.token rest
  rw [← htext] at hscan
  obtain ⟨front', htext', hlongest', hnumeral'⟩ := hsound hscan
  obtain rfl := hlongest.unique hlongest'
  obtain rfl : rest = rest' := List.append_cancel_left (htext.symm.trans htext')
  obtain rfl : numeral = numeral' := Option.some.inj (hnumeral.symm.trans hnumeral')
  exact hscan

theorem isSome_scan_iff : (scan text).isSome = true ↔ ∃ front ∈ numberToken, front <+: text := by
  constructor
  · intro h
    obtain ⟨⟨numeral, rest⟩, hscan⟩ := Option.isSome_iff_exists.mp h
    obtain ⟨front, hfront, htext, -⟩ := exists_token_of_scan hscan
    exact ⟨front, hfront, rest, htext.symm⟩
  · rintro ⟨front, hfront, more, rfl⟩
    obtain ⟨numeral, rest, hscan, -⟩ := scan_of_token hfront more
    rw [hscan]
    rfl

end Numeral

/-! ## Doubles -/

namespace Binary64

open Numeral

theorem toLower_ne_of_head {c : Char} (hc : c.isDigit = true ∨ c = '.') (rest : List Char)
    {name : String} (hname : name.toList.all (fun d => !d.isDigit && d != '.') = true) :
    (String.ofList (c :: rest)).toLower ≠ name := by
  rintro rfl
  rw [toList_toLower, String.toList_ofList] at hname
  obtain ⟨hdigit, hpoint⟩ : c.toLower.isDigit = false ∧ c.toLower ≠ '.' := by
    simpa using List.all_eq_true.mp hname c.toLower List.mem_cons_self
  rcases hc with hc | rfl
  · have hlower : c.toLower.isDigit = c.isDigit := toLower_congr Char.isDigit (by decide) c
    exact absurd (hlower.trans hc) (by simp [hdigit])
  · exact hpoint rfl

theorem ofText?_token {front : List Char} (h : front ∈ numberToken) :
    Binary64.ofText? (String.ofList front) = (Numeral.ofText? front).map ofNumeral := by
  obtain ⟨s, whole, fraction, e, hs, hne, hwhole, -, -, rfl⟩ := mem_numberToken.mp h
  obtain ⟨c, more, htext, hc⟩ := exists_head_of_mantissa hne hwhole e
  have hsign := splitSign_append_of_mem hs (unsigned_of_mantissa hne hwhole e)
  rw [htext] at hsign ⊢
  have hinf : (String.ofList (c :: more)).toLower ≠ "inf" :=
    toLower_ne_of_head hc more (by decide)
  have hinfinity : (String.ofList (c :: more)).toLower ≠ "infinity" :=
    toLower_ne_of_head hc more (by decide)
  have hnan : (String.ofList (c :: more)).toLower ≠ "nan" :=
    toLower_ne_of_head hc more (by decide)
  simp only [Binary64.ofText?, String.toList_ofList, hsign]
  generalize (String.ofList (c :: more)).toLower = word at hinf hinfinity hnan ⊢
  simp [hinf, hinfinity, hnan]

end Binary64

/-! ## Components -/

theorem isSome_readSuffix_iff {suffix : List Char} : (readSuffix suffix).isSome = true ↔
    suffix = [] ∨ suffix = ['%'] ∨ isIdent suffix = true := by
  constructor
  · intro h
    obtain ⟨noted, hnoted⟩ := Option.isSome_iff_exists.mp h
    rcases readSuffix_cases hnoted with ⟨hsuffix, -⟩ | ⟨hsuffix, -⟩ | ⟨hident, -⟩ | ⟨hident, -⟩
    · exact .inl hsuffix
    · exact .inr (.inl hsuffix)
    · exact .inr (.inr hident)
    · exact .inr (.inr hident)
  · rintro (rfl | rfl | hident)
    · rfl
    · rfl
    · obtain ⟨noted, hnoted, -⟩ := readSuffix_of_isIdent hident
      rw [hnoted]
      rfl

section

variable {ν : Type} [Scalar ν]

theorem result_readTrimmed_of_scan {text rest : List Char} {numeral : Numeral}
    (h : Numeral.scan text = some (numeral, rest)) :
    result (readTrimmed text : Reading ν (Primitive ν)) = match readSuffix rest with
      | some type => .ok (.numeric (Scalar.ofNumeral numeral) type.value)
      | none => .error (.malformedNumber (String.ofList text)) := by
  have hnumber : startsNumber text = true := by
    rw [Numeral.startsNumber_iff, h]
    rfl
  rw [readTrimmed_of_startsNumber hnumber, result_bind, readNumeric, h]
  dsimp only
  cases readSuffix rest with
  | none => rfl
  | some type => rfl

end

/-- The number at the front of a text as a double, and the text after it. -/
def scanDouble (text : List Char) : Option (Float × List Char) :=
  (Numeral.scan text).map fun (numeral, rest) => (Scalar.ofNumeral numeral, rest)

theorem scanDouble_eq_some_iff {text rest : List Char} {x : Float} :
    scanDouble text = some (x, rest) ↔ ∃ front, text = front ++ rest ∧
      IsLongestToken front text ∧ Binary64.ofText? (String.ofList front) = some x := by
  simp only [scanDouble, Option.map_eq_some_iff, Prod.mk.injEq]
  constructor
  · rintro ⟨⟨numeral, rest⟩, hscan, rfl, rfl⟩
    obtain ⟨front, htext, hlongest, hnumeral⟩ := Numeral.scan_eq_some_iff.mp hscan
    refine ⟨front, htext, hlongest, ?_⟩
    rw [Binary64.ofText?_token hlongest.token, hnumeral]
    rfl
  · rintro ⟨front, htext, hlongest, hread⟩
    rw [Binary64.ofText?_token hlongest.token] at hread
    obtain ⟨numeral, hnumeral, hx⟩ := Option.map_eq_some_iff.mp hread
    exact ⟨⟨numeral, rest⟩, Numeral.scan_eq_some_iff.mpr ⟨front, htext, hlongest, hnumeral⟩, hx,
      rfl⟩

/-- **The longest number token is read.** A number is found at the front of a text if a number token
stands there, and three characters are enough to see it. Then the token is the longest one, the
number is what the token alone reads as, and the text after it decides what is read: a number, or an
error that calls the number malformed. -/
theorem longest_number_read :
    (∀ text, startsNumber text = true ↔ (scanDouble text).isSome = true) ∧
    (∀ text, (scanDouble text).isSome = true ↔ ∃ front ∈ numberToken, front <+: text) ∧
    (∀ text rest x, scanDouble text = some (x, rest) ↔ ∃ front, text = front ++ rest ∧
      IsLongestToken front text ∧ Binary64.ofText? (String.ofList front) = some x) ∧
    ∀ text : String, startsNumber (trim text.toList) = true →
      ∃ x rest, scanDouble (trim text.toList) = some (x, rest) ∧
        ((rest = [] ∨ rest = ['%'] ∨ isIdent rest = true) →
          ∃ type, result (Primitive.read text) = .ok (.numeric x type)) ∧
        (¬ (rest = [] ∨ rest = ['%'] ∨ isIdent rest = true) →
          result (Primitive.read text : Reading Float (Primitive Float)) =
            .error (.malformedNumber (String.ofList (trim text.toList)))) := by
  have hsome : ∀ text, (scanDouble text).isSome = (Numeral.scan text).isSome := fun text => by
    rw [scanDouble, Option.isSome_map]
  refine ⟨fun text => ?_, fun text => ?_, fun text rest x => scanDouble_eq_some_iff,
    fun text h => ?_⟩
  · rw [hsome]
    exact Numeral.startsNumber_iff text
  · rw [hsome]
    exact Numeral.isSome_scan_iff
  · rw [Numeral.startsNumber_iff] at h
    obtain ⟨⟨numeral, rest⟩, hscan⟩ := Option.isSome_iff_exists.mp h
    have hread : result (Primitive.read text : Reading Float (Primitive Float)) = _ :=
      result_readTrimmed_of_scan hscan
    refine ⟨Scalar.ofNumeral numeral, rest, by rw [scanDouble, hscan]; rfl, ?_⟩
    rw [← isSome_readSuffix_iff, hread]
    cases readSuffix rest with
    | none => exact ⟨fun h => absurd h (by simp), fun _ => rfl⟩
    | some type => exact ⟨fun _ => ⟨type.value, rfl⟩, fun h => absurd rfl h⟩

/-- A second exponent is the unit of a number that has one. -/
theorem longest_number_read_exponents :
    startsNumber (trim "1e1e5".toList) = true ∧
    ∃ type, result (Primitive.read "1e1e5") =
      .ok (.numeric (Binary64.ofNumeral ⟨false, 1, 1⟩) type) := by
  refine ⟨by decide, ?_⟩
  obtain ⟨x, rest, hscan, hread, -⟩ := longest_number_read.2.2.2 "1e1e5" (by decide)
  have hvalue : scanDouble (trim "1e1e5".toList) =
      some (Binary64.ofNumeral ⟨false, 1, 1⟩, ['e', '5']) := by
    have hscan : Numeral.scan (trim "1e1e5".toList) = some (⟨false, 1, 1⟩, ['e', '5']) := by decide
    rw [scanDouble, hscan]
    rfl
  obtain ⟨rfl, rfl⟩ := Prod.mk.inj (Option.some.inj (hvalue.symm.trans hscan))
  exact hread (.inr (.inr (by decide)))

end ComputedCss
