import ComputedCss.Number.Double
import ComputedCss.Proofs.Value.ReadBack

/-!
# How a double is written

* `plainNumber_text`: a finite double is written as a plain number.
* `unscannable_of_not_isFinite`: what is written for any other double starts no number.
-/

namespace ComputedCss

namespace Binary64

/-- Neither infinite nor outside the numbers. -/
def isFinite : Binary64 → Bool
  | finite _ _ _ => true
  | _ => false

end Binary64

namespace NumberFormat

theorem isDigit_zeros {n : Nat} {c : Char} (hc : c ∈ zeros n) : c.isDigit = true := by
  rw [List.eq_of_mem_replicate hc]
  decide

theorem exists_positional_plain {digits : List Char} (hne : digits ≠ [])
    (hdigits : ∀ c ∈ digits, c.isDigit = true) (exponent : Int) :
    ∃ whole fraction, whole ≠ [] ∧ (∀ c ∈ whole, c.isDigit = true) ∧
      (∀ c ∈ fraction, c.isDigit = true) ∧
      plain.positional digits exponent =
        whole ++ (if fraction = [] then [] else '.' :: fraction) := by
  cases exponent with
  | ofNat n =>
    refine ⟨digits ++ zeros n, [], by simp [hne], fun c hc => ?_, by simp, by simp [positional, plain]⟩
    rcases List.mem_append.mp hc with hc | hc
    · exact hdigits c hc
    · exact isDigit_zeros hc
  | negSucc n =>
    by_cases hlt : n + 1 < digits.length
    · refine ⟨digits.take (digits.length - (n + 1)), digits.drop (digits.length - (n + 1)), ?_,
        fun c hc => hdigits c (List.mem_of_mem_take hc),
        fun c hc => hdigits c (List.mem_of_mem_drop hc), ?_⟩
      · rw [← List.length_pos_iff, List.length_take]
        omega
      · have hfraction : digits.drop (digits.length - (n + 1)) ≠ [] := by
          rw [← List.length_pos_iff, List.length_drop]
          omega
        rw [positional, if_pos hlt, if_neg hfraction]
    · refine ⟨['0'], zeros (n + 1 - digits.length) ++ digits, by simp, by simp, fun c hc => ?_, ?_⟩
      · rcases List.mem_append.mp hc with hc | hc
        · exact isDigit_zeros hc
        · exact hdigits c hc
      · rw [positional, if_neg hlt, if_neg (by simp [hne])]
        rfl

end NumberFormat

/-- **A finite double is written as a plain number.** -/
theorem plainNumber_text {x : Float} (h : (Binary64.ofFloat x).isFinite = true) :
    Nonempty (PlainNumber (Scalar.text x).toList) := by
  show Nonempty (PlainNumber (NumberFormat.plain.render x).toList)
  unfold NumberFormat.render
  cases hx : Binary64.ofFloat x with
  | notANumber =>
    rw [hx] at h
    exact absurd h Bool.false_ne_true
  | infinite negative =>
    rw [hx] at h
    exact absurd h Bool.false_ne_true
  | finite negative m q =>
    dsimp only
    rw [String.toList_ofList]
    generalize Shortest.decimal NumberFormat.plain.tie m q = d
    have hdigits : ∀ c ∈ Nat.toDigits 10 d.digits, c.isDigit = true := fun c hc =>
      Nat.isDigit_of_mem_toDigits (by decide) (by decide) hc
    obtain ⟨whole, fraction, hne, hwhole, hfraction, htext⟩ :=
      NumberFormat.exists_positional_plain Nat.toDigits_ne_nil hdigits d.exponent
    refine ⟨⟨negative, whole, fraction, hne, hwhole, hfraction, ?_⟩⟩
    rw [← htext]
    rfl

theorem unscannable_of_not_isFinite {x : Float} (h : (Binary64.ofFloat x).isFinite = false) :
    Unscannable x := by
  have hcases : (Scalar.text x).toList = "NaN".toList ∨ (Scalar.text x).toList = "inf".toList ∨
      (Scalar.text x).toList = "-inf".toList := by
    show (NumberFormat.plain.render x).toList = _ ∨ (NumberFormat.plain.render x).toList = _ ∨
      (NumberFormat.plain.render x).toList = _
    unfold NumberFormat.render
    cases hx : Binary64.ofFloat x with
    | notANumber => exact .inl rfl
    | infinite negative =>
      cases negative with
      | false => exact .inr (.inl rfl)
      | true => exact .inr (.inr rfl)
    | finite negative m q =>
      rw [hx] at h
      exact absurd h.symm Bool.false_ne_true
  rcases hcases with htext | htext | htext
  · exact ⟨htext ▸ isNumberText_of_all (by decide) (by decide), fun rest => by rw [htext]; rfl⟩
  · exact ⟨htext ▸ isNumberText_of_all (by decide) (by decide), fun rest => by rw [htext]; rfl⟩
  · exact ⟨htext ▸ isNumberText_of_all (by decide) (by decide), fun rest => by rw [htext]; rfl⟩

theorem isNumberText_text (x : Float) : IsNumberText (Scalar.text x).toList := by
  cases hx : (Binary64.ofFloat x).isFinite with
  | true => exact (plainNumber_text hx).elim isNumberText_of_plain
  | false => exact (unscannable_of_not_isFinite hx).isNumberText

end ComputedCss
