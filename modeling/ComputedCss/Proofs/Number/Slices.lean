import ComputedCss.Proofs.Number.Longest
import ComputedCss.Proofs.Text.Slices

/-!
# Number tokens by positions

The end of a number token is found among the bytes of a text, by counting digits from positions
that grow. Then the text is cut there.

* `mantissaEnd`, `exponentEnd`: the end of a mantissa, and the end of the exponent after it.
* `scan`: the number token up to the end, and the text from the end on.
* `scan_eq`: its slices can be taken, and it scans what `Numeral.scan` does.
-/

namespace ComputedCss.Slicing

open NumberToken Numeral

/-! ## The scanner -/

/-- How many digits stand from a position on. -/
def digitsFrom (bytes : List UInt8) (start : Nat) : Sliced Nat := do
  let after ← bytesFrom bytes start
  pure (after.takeWhile (Char.isDigit ∘ charOfByte)).length

/-- How many bytes the sign at a position takes. -/
def signAt (bytes : List UInt8) (i : Nat) : Nat :=
  if isAt bytes i '+' || isAt bytes i '-' then 1 else 0

/-- How many digits stand behind a point at a position. -/
def fractionAt (bytes : List UInt8) (stop : Nat) : Sliced Nat :=
  if isAt bytes stop '.' then digitsFrom bytes (stop + 1) else pure 0

/-- The end of the sign and the mantissa at the front, if there is a mantissa. -/
def mantissaEnd (bytes : List UInt8) : Sliced (Option Nat) := do
  let start := signAt bytes 0
  let whole ← digitsFrom bytes start
  let stop := start + whole
  let fraction ← fractionAt bytes stop
  if whole = 0 ∧ fraction = 0 then pure none
  else if fraction = 0 then pure (some stop)
  else pure (some (stop + 1 + fraction))

/-- The end of the exponent that begins where a mantissa ends, or the end of the mantissa. -/
def exponentEnd (bytes : List UInt8) (stop : Nat) : Sliced Nat := do
  if isAt bytes stop 'e' || isAt bytes stop 'E' then
    let start := stop + 1 + signAt bytes (stop + 1)
    let digits ← digitsFrom bytes start
    if digits = 0 then pure stop else pure (start + digits)
  else pure stop

/-- The number token at the front of a text, and the text after it. -/
def scan (text : List Char) : Sliced (Option (Numeral × List Char)) := do
  match ← mantissaEnd (utf8 text) with
  | none => pure none
  | some stop =>
    let stop ← exponentEnd (utf8 text) stop
    let token ← takeTo text stop
    match Numeral.ofText? token with
    | none => pure none
    | some numeral =>
      let rest ← dropTo text stop
      pure (some (numeral, rest))

/-! ## Its slices -/

theorem isAscii_isDigit : IsAscii Char.isDigit := by
  intro c hc
  by_contra hdigit
  have hcode := (code_of_isDigit (by simpa using hdigit)).2
  omega

theorem byteLength_digits {ds : List Char} (hds : ∀ c ∈ ds, c.isDigit = true) :
    byteLength ds = ds.length :=
  byteLength_of_ascii fun c hc => toNat_lt_of_isAscii isAscii_isDigit (hds c hc)

theorem digitsFrom_append (front rest : List Char) :
    digitsFrom (utf8 (front ++ rest)) (byteLength front) = pure (splitDigits rest).1.length := by
  rw [digitsFrom, bytesFrom_append, pure_bind, length_takeWhile_utf8 isAscii_isDigit]
  rfl

theorem digitsFrom_append_cons {c : Char} (hc : c.utf8Size = 1) (front rest : List Char) :
    digitsFrom (utf8 (front ++ c :: rest)) (byteLength front + 1) =
      pure (splitDigits rest).1.length := by
  have hcount := digitsFrom_append (front ++ [c]) rest
  rw [List.append_assoc, List.singleton_append, byteLength_append, byteLength_cons, hc] at hcount
  exact hcount

theorem exists_signAt (front rest : List Char) : ∃ s, rest = s ++ (splitSign rest).2 ∧
    signAt (utf8 (front ++ rest)) (byteLength front) = byteLength s := by
  rw [signAt, isAt_append (by decide), isAt_append (by decide)]
  unfold splitSign
  split
  · exact ⟨['+'], rfl, rfl⟩
  · exact ⟨['-'], rfl, rfl⟩
  · rename_i hplus hminus
    refine ⟨[], rfl, if_neg ?_⟩
    rw [Bool.or_eq_true, beq_iff_eq, beq_iff_eq, List.head?_eq_some_iff, List.head?_eq_some_iff]
    rintro (⟨more, hmore⟩ | ⟨more, hmore⟩)
    · exact hplus more hmore
    · exact hminus more hmore

theorem fractionAt_append (front rest : List Char) :
    fractionAt (utf8 (front ++ rest)) (byteLength front) = pure (splitFraction rest).1.length := by
  rw [fractionAt, isAt_append (by decide)]
  by_cases hpoint : rest.head? = some '.'
  · obtain ⟨more, rfl⟩ := List.head?_eq_some_iff.mp hpoint
    rw [if_pos (by rfl), digitsFrom_append_cons rfl]
    by_cases hempty : (splitDigits more).1 = []
    · simp [splitFraction, hempty]
    · simp [splitFraction, hempty]
  · rw [if_neg (by simpa using hpoint), splitFraction_eq_nil]
    · rfl
    · rintro c hc rfl
      exact hpoint hc

theorem byteLength_pointed {fraction : List Char} (h : ∀ c ∈ fraction, c.isDigit = true) :
    byteLength (pointed fraction) = if fraction.length = 0 then 0 else 1 + fraction.length := by
  by_cases hempty : fraction = []
  · subst hempty
    rfl
  · rw [pointed_of_ne hempty, byteLength_cons, byteLength_digits h,
      if_neg (by simpa using hempty)]
    rfl

theorem exists_mantissaEnd (text : List Char) : ∃ front whole fraction more,
    splitMantissa (splitSign text).2 = (whole, fraction, more) ∧ text = front ++ more ∧
      mantissaEnd (utf8 text) =
        pure (if whole = [] ∧ fraction = [] then none else some (byteLength front)) := by
  obtain ⟨s, htext, hsign⟩ := exists_signAt [] text
  obtain ⟨whole, fraction, more, hsplit⟩ : ∃ whole fraction more,
      splitMantissa (splitSign text).2 = (whole, fraction, more) := ⟨_, _, _, rfl⟩
  obtain ⟨hmantissa, hwhole, hfraction⟩ := eq_of_splitMantissa hsplit
  refine ⟨s ++ (whole ++ pointed fraction), whole, fraction, more, hsplit, ?_, ?_⟩
  · simpa [hmantissa] using htext
  · obtain ⟨hdigits, hpoint⟩ := Prod.mk.inj hsplit
    obtain ⟨after, hafter⟩ : ∃ after, (splitDigits (splitSign text).2).2 = after := ⟨_, rfl⟩
    have hrest : (splitSign text).2 = whole ++ after := by
      rw [← hdigits, ← hafter]
      exact List.takeWhile_append_dropWhile.symm
    rw [hafter] at hpoint
    have hcount : digitsFrom (utf8 text) (byteLength s) = pure whole.length := by
      rw [← hdigits, ← digitsFrom_append s, ← htext]
    have hstop : byteLength s + whole.length = byteLength (s ++ whole) := by
      rw [byteLength_append, byteLength_digits hwhole]
    have hfractionCount : fractionAt (utf8 text) (byteLength (s ++ whole)) =
        pure fraction.length := by
      have hcut : text = s ++ whole ++ after := by rw [List.append_assoc, ← hrest, ← htext]
      have hcounted := fractionAt_append (s ++ whole) after
      rw [← hcut, hpoint] at hcounted
      exact hcounted
    rw [mantissaEnd]
    rw [List.nil_append, byteLength_nil] at hsign
    dsimp only
    rw [hsign, hcount, pure_bind, hstop, hfractionCount, pure_bind, ← List.append_assoc,
      byteLength_append (s ++ whole) (pointed fraction), byteLength_pointed hfraction]
    simp only [List.length_eq_zero_iff]
    split_ifs
    · rfl
    · rfl
    · rw [Nat.add_assoc]

theorem exists_exponentEnd (front rest : List Char) : ∃ e, rest = e ++ (splitExponent rest).2 ∧
    exponentEnd (utf8 (front ++ rest)) (byteLength front) = pure (byteLength (front ++ e)) := by
  have hletter : (rest.head? == some 'e' || rest.head? == some 'E') = true ↔
      rest.head? = some 'e' ∨ rest.head? = some 'E' := by
    rw [Bool.or_eq_true, beq_iff_eq, beq_iff_eq]
  rw [exponentEnd, isAt_append (by decide), isAt_append (by decide)]
  by_cases hmark : rest.head? = some 'e' ∨ rest.head? = some 'E'
  · obtain ⟨c, more, hc, rfl⟩ : ∃ c more, (c = 'e' ∨ c = 'E') ∧ rest = c :: more := by
      rcases hmark with h | h
      · obtain ⟨more, rfl⟩ := List.head?_eq_some_iff.mp h
        exact ⟨_, more, .inl rfl, rfl⟩
      · obtain ⟨more, rfl⟩ := List.head?_eq_some_iff.mp h
        exact ⟨_, more, .inr rfl, rfl⟩
    have hsize : c.utf8Size = 1 := by rcases hc with rfl | rfl <;> rfl
    obtain ⟨s, hmore, hsign⟩ := exists_signAt (front ++ [c]) more
    obtain ⟨ds, after, hsplit, hafter, hds, -⟩ := exists_digits (splitSign more).2
    have hfront : front ++ c :: more = front ++ [c] ++ s ++ (splitSign more).2 := by
      rw [List.append_assoc, ← hmore, List.append_assoc, List.singleton_append]
    have hbyte : byteLength (front ++ [c]) = byteLength front + 1 := by
      rw [byteLength_append, byteLength_cons, hsize]
      rfl
    have hcount : digitsFrom (utf8 (front ++ c :: more)) (byteLength (front ++ [c] ++ s)) =
        pure ds.length := by
      rw [hfront, digitsFrom_append, hsplit]
    have hexponent : (splitExponent (c :: more)).2 = if ds = [] then c :: more else after := by
      have hcmark : (c == 'e' || c == 'E') = true := by simpa using hc
      by_cases hempty : ds = []
      · simp [splitExponent, hcmark, hsplit, hempty]
      · simp [splitExponent, hcmark, hsplit, hempty]
    rw [List.append_assoc, List.singleton_append, hbyte] at hsign
    rw [if_pos (hletter.mpr hmark)]
    dsimp only
    rw [hsign, ← hbyte, ← byteLength_append, hcount, pure_bind, hexponent]
    by_cases hempty : ds = []
    · -- A letter without digits after it is no exponent, and the sign after it is not read either.
      refine ⟨[], ?_, ?_⟩
      · rw [if_pos hempty, List.nil_append]
      · rw [hempty, List.append_nil]
        rfl
    · refine ⟨c :: (s ++ ds), ?_, ?_⟩
      · rw [if_neg hempty, List.cons_append, List.append_assoc, ← hafter, ← hmore]
      · rw [if_neg (by simpa using hempty), ← byteLength_digits hds, ← byteLength_append]
        simp only [List.append_assoc, List.cons_append, List.nil_append]
  · refine ⟨[], ?_, ?_⟩
    · rw [List.nil_append, splitExponent_eq_self]
      intro c hc
      constructor
      · rintro rfl
        exact hmark (.inl hc)
      · rintro rfl
        exact hmark (.inr hc)
    · rw [if_neg (mt hletter.mp hmark), List.append_nil]

/-- **Scanning a number takes no slice that cannot be taken**, and finds the token by its end. -/
theorem scan_eq (text : List Char) : scan text = pure (Numeral.scan text) := by
  obtain ⟨front, whole, fraction, more, hsplit, htext, hmantissa⟩ := exists_mantissaEnd text
  rw [scan, hmantissa, pure_bind]
  by_cases hempty : whole = [] ∧ fraction = []
  · have hnone : Numeral.scan text = none := by
      rw [← Option.not_isSome_iff_eq_none, isSome_scan_iff_digits, hsplit]
      simp [hempty]
    rw [if_pos hempty, hnone]
  · obtain ⟨e, hmore, hexponent⟩ := exists_exponentEnd front more
    obtain ⟨numeral, hscan⟩ : ∃ numeral,
        Numeral.scan text = some (numeral, (splitExponent more).2) :=
      ⟨_, scan_eq_some_iff_parts.mpr ⟨whole, fraction, more, hsplit, by
        simpa [← not_and_or] using hempty, rfl, rfl⟩⟩
    obtain ⟨token, -, htoken, halone⟩ := exists_token_of_scan hscan
    have hcut : text = front ++ e ++ (splitExponent more).2 := by
      rw [List.append_assoc, ← hmore, ← htext]
    obtain rfl : token = front ++ e := List.append_cancel_right (htoken.symm.trans hcut)
    have htake := takeTo_append (front ++ e) (splitExponent more).2
    have hdrop := dropTo_append (front ++ e) (splitExponent more).2
    rw [← hcut] at htake hdrop
    rw [← htext] at hexponent
    rw [if_neg hempty]
    dsimp only
    rw [hexponent, pure_bind, htake, pure_bind, ofText?_of_scan halone, hscan]
    dsimp only
    rw [hdrop, pure_bind]

end ComputedCss.Slicing
