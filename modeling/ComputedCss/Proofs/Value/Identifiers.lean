import ComputedCss.Dimension
import ComputedCss.Number.Numeral
import ComputedCss.Value.Token
import ComputedCss.Proofs.Text.Splitting

/-!
# Identifiers

* `uncut_of_isIdent`: an identifier has no separator, quote or parenthesis in it.
* `startsNumber_of_isIdent`: an identifier does not start like a number.
* `isIdent_toLower`: lowering the case of an identifier gives an identifier.
-/

namespace ComputedCss

open Text

variable {text : List Char}

/-! ## Characters -/

theorem isIdentPart_of_isIdentStart {c : Char} (h : isIdentStart c = true) :
    isIdentPart c = true := by
  rw [isIdentPart, h]
  rfl

theorem isPlain_of_isIdentPart {c : Char} (h : isIdentPart c = true) : isPlain c = true := by
  by_contra hplain
  have hc : ((c = '\x22' ∨ c = '\x27') ∨ c = '(') ∨ c = ')' := by
    simpa [isPlain, isQuote, or_assoc, imp_iff_not_or, not_and_or] using hplain
  rcases hc with ((rfl | rfl) | rfl) | rfl <;> exact absurd h (by decide)

theorem isBreak_of_isIdentPart {c : Char} (h : isIdentPart c = true) : isBreak c = false := by
  rw [Bool.eq_false_iff]
  intro hbreak
  simp only [isBreak, isSpace, Bool.or_eq_true, beq_iff_eq] at hbreak
  rcases hbreak with rfl | (((rfl | rfl) | rfl) | rfl) | rfl <;> exact absurd h (by decide)

theorem code_of_isDigit {c : Char} (h : c.isDigit = true) : 48 ≤ c.toNat ∧ c.toNat ≤ 57 := by
  obtain ⟨hlow, hhigh⟩ := (Bool.and_eq_true _ _).mp h
  exact ⟨of_decide_eq_true hlow, of_decide_eq_true hhigh⟩

theorem code_of_isAlpha {c : Char} (h : c.isAlpha = true) :
    (65 ≤ c.toNat ∧ c.toNat ≤ 90) ∨ (97 ≤ c.toNat ∧ c.toNat ≤ 122) := by
  rcases (Bool.or_eq_true _ _).mp h with hcapital | hsmall
  · exact .inl (of_decide_eq_true hcapital)
  · obtain ⟨hlow, hhigh⟩ := (Bool.and_eq_true _ _).mp hsmall
    exact .inr ⟨of_decide_eq_true hlow, of_decide_eq_true hhigh⟩

theorem not_isDigit_of_isIdentStart {c : Char} (h : isIdentStart c = true) :
    c.isDigit = false := by
  rw [Bool.eq_false_iff]
  intro hdigit
  obtain ⟨hlow, hhigh⟩ := code_of_isDigit hdigit
  rw [isIdentStart, Bool.or_eq_true, Bool.or_eq_true] at h
  rcases h with (hletter | hunderscore) | hwide
  · rcases code_of_isAlpha hletter with ⟨hcode, -⟩ | ⟨hcode, -⟩ <;> omega
  · obtain rfl := eq_of_beq hunderscore
    exact absurd hhigh (by decide)
  · have hcode : 128 ≤ c.toNat := of_decide_eq_true hwide
    omega

/-! ## Identifiers -/

theorem isIdent_cases (h : isIdent text = true) :
    (∃ c rest, text = c :: rest ∧ isIdentStart c = true ∧ rest.all isIdentPart = true) ∨
    (∃ c rest, text = '-' :: c :: rest ∧ (c = '-' ∨ isIdentStart c = true) ∧
      rest.all isIdentPart = true) := by
  unfold isIdent at h
  split at h
  · rename_i rest
    exact .inr ⟨'-', rest, rfl, .inl rfl, h⟩
  · rename_i c rest _
    obtain ⟨hc, hrest⟩ := Bool.and_eq_true_iff.mp h
    exact .inr ⟨c, rest, rfl, .inr hc, hrest⟩
  · rename_i c rest _ _
    obtain ⟨hc, hrest⟩ := Bool.and_eq_true_iff.mp h
    exact .inl ⟨c, rest, rfl, hc, hrest⟩
  · exact absurd h (by simp)

theorem isIdent_cons {c : Char} (hc : isIdentStart c = true) {rest : List Char}
    (hrest : rest.all isIdentPart = true) : isIdent (c :: rest) = true := by
  have hminus : c ≠ '-' := by
    rintro rfl
    exact absurd hc (by decide)
  rw [isIdent]
  · rw [hc, hrest]
    rfl
  · rintro rest' rfl
    exact fun _ => hminus rfl
  · rintro d rest' rfl
    exact fun _ => hminus rfl

theorem ne_nil_of_isIdent (h : isIdent text = true) : text ≠ [] := by
  rcases isIdent_cases h with ⟨c, rest, rfl, -⟩ | ⟨c, rest, rfl, -⟩ <;> simp

theorem isIdentPart_of_isIdent (h : isIdent text = true) : ∀ c ∈ text, isIdentPart c = true := by
  rcases isIdent_cases h with ⟨c, rest, rfl, hc, hrest⟩ | ⟨c, rest, rfl, hc, hrest⟩
  · intro d hd
    rcases List.mem_cons.mp hd with rfl | hd
    · exact isIdentPart_of_isIdentStart hc
    · exact List.all_eq_true.mp hrest d hd
  · intro d hd
    rcases List.mem_cons.mp hd with rfl | hd
    · decide
    · rcases List.mem_cons.mp hd with rfl | hd
      · rcases hc with rfl | hc
        · decide
        · exact isIdentPart_of_isIdentStart hc
      · exact List.all_eq_true.mp hrest d hd

theorem uncut_of_isIdent (h : isIdent text = true) : Uncut text := by
  apply uncut_of_isPlain
  intro c hc
  have hpart := isIdentPart_of_isIdent h c hc
  exact ⟨isPlain_of_isIdentPart hpart, isBreak_of_isIdentPart hpart⟩

theorem startsNumber_cons_of_isIdentStart {c : Char} (hc : isIdentStart c = true)
    (rest : List Char) : startsNumber (c :: rest) = false := by
  have hdigit := not_isDigit_of_isIdentStart hc
  have hplus : c ≠ '+' := by
    rintro rfl
    exact absurd hc (by decide)
  have hminus : c ≠ '-' := by
    rintro rfl
    exact absurd hc (by decide)
  have hpoint : c ≠ '.' := by
    rintro rfl
    exact absurd hc (by decide)
  simp [startsNumber, hplus, hminus, hpoint, hdigit]

theorem startsNumber_of_isIdent (h : isIdent text = true) : startsNumber text = false := by
  rcases isIdent_cases h with ⟨c, rest, rfl, hc, -⟩ | ⟨c, rest, rfl, hc, -⟩
  · exact startsNumber_cons_of_isIdentStart hc rest
  · rcases hc with rfl | hc
    · rfl
    · have hdigit := not_isDigit_of_isIdentStart hc
      have hpoint : c ≠ '.' := by
        rintro rfl
        exact absurd hc (by decide)
      simp [startsNumber, hpoint, hdigit]

/-! ## Case -/

theorem toLower_cases (c : Char) :
    c.toLower = c ∨ ∃ n < 26, c = Char.ofNat (65 + n) ∧ c.toLower = Char.ofNat (97 + n) := by
  by_cases h : c.val ≥ 'A'.val ∧ c.val ≤ 'Z'.val
  · have hlow : 65 ≤ c.toNat := h.1
    have hhigh : c.toNat ≤ 90 := h.2
    have hc : c = Char.ofNat (65 + (c.toNat - 65)) := by
      rw [Nat.add_sub_cancel' hlow, Char.ofNat_toNat]
    refine .inr ⟨c.toNat - 65, by omega, hc, ?_⟩
    have hall : ∀ n < 26, (Char.ofNat (65 + n)).toLower = Char.ofNat (97 + n) := by decide
    have hlower := hall (c.toNat - 65) (by omega)
    rwa [← hc] at hlower
  · left
    exact dif_neg h

theorem toLower_congr {α : Type} [DecidableEq α] (f : Char → α)
    (hf : ∀ n < 26, f (Char.ofNat (97 + n)) = f (Char.ofNat (65 + n))) (c : Char) :
    f c.toLower = f c := by
  rcases toLower_cases c with h | ⟨n, hn, hc, hlower⟩
  · rw [h]
  · rw [hlower, hc]
    exact hf n hn

theorem isIdentStart_toLower (c : Char) : isIdentStart c.toLower = isIdentStart c :=
  toLower_congr isIdentStart (by decide) c

theorem isIdentPart_toLower (c : Char) : isIdentPart c.toLower = isIdentPart c :=
  toLower_congr isIdentPart (by decide) c

theorem isBlank_toLower (c : Char) : isBlank c.toLower = isBlank c :=
  toLower_congr isBlank (by decide) c

theorem toLower_toLower (c : Char) : c.toLower.toLower = c.toLower :=
  toLower_congr Char.toLower (by decide) c

theorem toList_toLower (s : String) : s.toLower.toList = s.toList.map Char.toLower :=
  String.toList_map

theorem string_toLower_toLower (s : String) : s.toLower.toLower = s.toLower := by
  apply String.toList_injective
  rw [toList_toLower, toList_toLower, List.map_map]
  exact List.map_congr_left fun c _ => toLower_toLower c

theorem all_isIdentPart_toLower (rest : List Char) :
    (rest.map Char.toLower).all isIdentPart = rest.all isIdentPart := by
  rw [List.all_map]
  congr 1
  funext c
  exact isIdentPart_toLower c

theorem isIdent_toLower (h : isIdent text = true) : isIdent (text.map Char.toLower) = true := by
  rcases isIdent_cases h with ⟨c, rest, rfl, hc, hrest⟩ | ⟨c, rest, rfl, hc, hrest⟩
  · have hstart : isIdentStart c.toLower = true := by rw [isIdentStart_toLower, hc]
    rw [List.map_cons]
    exact isIdent_cons hstart (by rw [all_isIdentPart_toLower, hrest])
  · rcases hc with rfl | hc
    · rw [List.map_cons, List.map_cons]
      show (rest.map Char.toLower).all isIdentPart = true
      rw [all_isIdentPart_toLower, hrest]
    · have hstart : isIdentStart c.toLower = true := by rw [isIdentStart_toLower, hc]
      rw [List.map_cons, List.map_cons, show Char.toLower '-' = '-' from rfl, isIdent]
      · rw [hstart, all_isIdentPart_toLower, hrest]
        rfl
      · intro hminus
        rw [hminus] at hstart
        exact absurd hstart (by decide)

theorem ofName?_toLower (name : String) : Dimension.ofName? name.toLower = Dimension.ofName? name := by
  simp only [Dimension.ofName?, caselessEq, string_toLower_toLower]

end ComputedCss
