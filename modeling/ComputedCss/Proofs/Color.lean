import ComputedCss.Color
import ComputedCss.Proofs.Text.Joining

/-!
# Hexadecimal colours read back

* `ofHex?_toHex`: a colour is read from what is written for it.
* `piece_toHex`: what is written for a colour is one piece of a list.
-/

namespace ComputedCss

open Text

theorem hexValue?_digitChar {n : Nat} (h : n < 16) : hexValue? (Nat.digitChar n) = some n := by
  have hall : ∀ n < 16, hexValue? (Nat.digitChar n) = some n := by decide
  exact hall n h

namespace Color

theorem byteOfDigits_div_mod (byte : UInt8) :
    byteOfDigits (byte.toNat / 16) (byte.toNat % 16) = byte := by
  rw [byteOfDigits, Nat.div_add_mod]
  exact UInt8.ofNat_toNat

theorem hexValue?_byteDigits (byte : UInt8) :
    hexValue? (Nat.digitChar (byte.toNat / 16)) = some (byte.toNat / 16) ∧
      hexValue? (Nat.digitChar (byte.toNat % 16)) = some (byte.toNat % 16) := by
  have hbyte := byte.toNat_lt
  exact ⟨hexValue?_digitChar (by omega), hexValue?_digitChar (by omega)⟩

/-- **A colour is read from what is written for it.** -/
theorem ofHex?_toHex (color : Color) : ofHex? color.toHex = some color := by
  obtain ⟨red, green, blue, alpha⟩ := color
  obtain ⟨hr, hr'⟩ := hexValue?_byteDigits red
  obtain ⟨hg, hg'⟩ := hexValue?_byteDigits green
  obtain ⟨hb, hb'⟩ := hexValue?_byteDigits blue
  obtain ⟨ha, ha'⟩ := hexValue?_byteDigits alpha
  rw [ofHex?, toHex, String.toList_ofList]
  dsimp only [byteDigits]
  by_cases hopaque : alpha = 255
  · rw [if_pos hopaque]
    simp [hr, hr', hg, hg', hb, hb', byteOfDigits_div_mod, solid, hopaque]
  · rw [if_neg hopaque]
    simp [hr, hr', hg, hg', hb, hb', ha, ha', byteOfDigits_div_mod]

theorem plain_of_mem_byteDigits {byte : UInt8} {c : Char} (hc : c ∈ byteDigits byte) :
    isPlain c = true ∧ isBreak c = false ∧ isBlank c = false := by
  have hall : ∀ n < 16, isPlain (Nat.digitChar n) = true ∧ isBreak (Nat.digitChar n) = false ∧
      isBlank (Nat.digitChar n) = false := by decide
  have hbyte := byte.toNat_lt
  simp only [byteDigits, List.mem_cons, List.not_mem_nil, or_false] at hc
  rcases hc with rfl | rfl
  · exact hall _ (by omega)
  · exact hall _ (by omega)

theorem piece_toHex (color : Color) : Piece color.toHex.toList := by
  have hall : ∀ c ∈ color.toHex.toList,
      isPlain c = true ∧ isBreak c = false ∧ isBlank c = false := by
    intro c hc
    rw [toHex, String.toList_ofList, List.mem_cons] at hc
    rcases hc with rfl | hc
    · decide
    · simp only [List.mem_append] at hc
      rcases hc with ((hc | hc) | hc) | hc
      · exact plain_of_mem_byteDigits hc
      · exact plain_of_mem_byteDigits hc
      · exact plain_of_mem_byteDigits hc
      · split_ifs at hc
        · exact absurd hc (by simp)
        · exact plain_of_mem_byteDigits hc
  exact ⟨by simp [toHex], trimmed_of_forall fun c hc => (hall c hc).2.2,
    uncut_of_isPlain fun c hc => ⟨(hall c hc).1, (hall c hc).2.1⟩⟩

end Color

end ComputedCss
