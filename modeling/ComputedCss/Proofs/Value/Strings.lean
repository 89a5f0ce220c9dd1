import ComputedCss.Proofs.Color
import ComputedCss.Proofs.Text.Quotes
import ComputedCss.Value.Printer
import ComputedCss.Value.Token

/-!
# Strings read back

A string is written between double quotes, one character after the other (`escapeString`). Decoding
what is written for a character gives that character, except that the null character has been
replaced, and leaves the text after it.

* `readString_escaped`: decoding what is written for a string gives the string with its null
  characters replaced.
* `pass_stringText`: what is written for a string contains no cut.
-/

namespace ComputedCss

/-- What a character becomes by being written and decoded. -/
def replaceNull (c : Char) : Char :=
  if c = '\x00' then '\ufffd' else c

theorem escapeString_cases (c : Char) :
    (c = '\x00' ∧ escapeString c = ['\ufffd']) ∨
    (c ≠ '\x00' ∧ c.toNat < 0x80 ∧ escapeString c = '\\' :: (Text.hexDigits c.toNat ++ [' '])) ∨
    ((c = '\x22' ∨ c = '\\') ∧ escapeString c = ['\\', c]) ∨
    (c ≠ '\x00' ∧ c ≠ '\x22' ∧ c ≠ '\\' ∧ escapeString c = [c]) := by
  unfold escapeString
  split_ifs with hnull hcontrol hquote
  · exact .inl ⟨by simpa using hnull, rfl⟩
  · refine .inr (.inl ⟨by simpa using hnull, ?_, rfl⟩)
    rcases Bool.or_eq_true_iff.mp hcontrol with h | h
    · have hlt : c.toNat < 0x20 := by simpa using h
      omega
    · obtain rfl : c = '\x7f' := by simpa using h
      decide
  · exact .inr (.inr (.inl ⟨by simpa using hquote, rfl⟩))
  · have hne : ¬ (c = '\x22' ∨ c = '\\') := by simpa using hquote
    exact .inr (.inr (.inr ⟨by simpa using hnull, fun h => hne (.inl h), fun h => hne (.inr h), rfl⟩))

/-! ## Escapes -/

theorem hexDigits_of_lt {n : Nat} (h : n < 16) : Text.hexDigits n = [Nat.digitChar n] :=
  Nat.toDigits_of_lt_base h

theorem hexDigits_of_le {n : Nat} (hlow : 16 ≤ n) (hhigh : n < 256) :
    Text.hexDigits n = [Nat.digitChar (n / 16), Nat.digitChar (n % 16)] := by
  rw [Text.hexDigits, Nat.toDigits_of_base_le (by decide) hlow, Nat.toDigits_of_lt_base (by omega)]
  rfl

theorem charOfCode_toNat {c : Char} (h : c ≠ '\x00') : charOfCode c.toNat = c := by
  have hvalid : c.toNat.isValidChar := c.valid
  have hne : c.toNat ≠ 0 := by
    intro hzero
    apply h
    rw [← Char.ofNat_toNat c, hzero]
  have hchar := Char.ofNat_toNat c
  rw [Char.ofNat, dif_pos hvalid] at hchar
  rw [charOfCode, dif_pos ⟨hvalid, hne⟩]
  exact hchar

theorem readHex_digitChar {n : Nat} (h : n < 16) (limit code : Nat) (rest : List Char) :
    readHex (limit + 1) code (Nat.digitChar n :: rest) = readHex limit (16 * code + n) rest := by
  rw [readHex, hexValue?_digitChar h]

theorem readEscape_hexDigits {n : Nat} (h : n < 256) (rest : List Char) :
    readEscape (Text.hexDigits n ++ ' ' :: rest) = some (charOfCode n, rest) := by
  have hspace : ∀ limit code, readHex (limit + 1) code (' ' :: rest) = (code, ' ' :: rest) :=
    fun _ _ => rfl
  by_cases hlow : n < 16
  · rw [hexDigits_of_lt hlow, List.singleton_append, readEscape, hexValue?_digitChar hlow]
    simp only [hspace]
    rfl
  · have hhigh : n / 16 < 16 := by omega
    rw [hexDigits_of_le (by omega) h, List.cons_append, readEscape, hexValue?_digitChar hhigh]
    simp only [List.singleton_append, readHex_digitChar (Nat.mod_lt n (by decide)), hspace]
    rw [show 16 * (n / 16) + n % 16 = n by omega]
    rfl

/-! ## Decoding -/

theorem readQuoted_close (quote : Char) (rest : List Char) :
    readQuoted quote (quote :: rest) = some ([], rest) := by
  rw [readQuoted, if_pos (by simp)]

theorem readQuoted_cons {quote c : Char} (hquote : c ≠ quote) (hescape : c ≠ '\\')
    (rest : List Char) :
    readQuoted quote (c :: rest) = (readQuoted quote rest).map fun (cs, rest) => (c :: cs, rest) := by
  rw [readQuoted, if_neg (by simpa using hquote), if_neg (by simpa using hescape)]

theorem readQuoted_escape {quote c : Char} {text rest : List Char} (hquote : quote ≠ '\\')
    (h : readEscape text = some (c, rest)) :
    readQuoted quote ('\\' :: text) =
      (readQuoted quote rest).map fun (cs, rest) => (c :: cs, rest) := by
  rw [readQuoted, if_neg (by simpa using hquote.symm), if_pos (by simp)]
  split
  · rename_i d rest' heq
    rw [h] at heq
    obtain ⟨rfl, rfl⟩ : c = d ∧ rest = rest' := by simpa using heq
    rfl
  · rename_i heq
    rw [h] at heq
    exact absurd heq (by simp)

theorem readQuoted_escapeString (c : Char) (rest : List Char) :
    readQuoted '\x22' (escapeString c ++ rest) =
      (readQuoted '\x22' rest).map fun (cs, rest) => (replaceNull c :: cs, rest) := by
  rcases escapeString_cases c with ⟨rfl, hc⟩ | ⟨hne, hlt, hc⟩ | ⟨hquote, hc⟩ | ⟨hne, hq, hb, hc⟩
  · rw [hc]
    exact readQuoted_cons (by decide) (by decide) rest
  · rw [hc, List.cons_append, List.append_assoc, List.singleton_append,
      readQuoted_escape (by decide) (readEscape_hexDigits (by omega) rest), charOfCode_toNat hne,
      replaceNull, if_neg hne]
  · rw [hc]
    have hescape : readEscape (c :: rest) = some (c, rest) := by
      rcases hquote with rfl | rfl <;> rfl
    have hnull : replaceNull c = c := by
      rcases hquote with rfl | rfl <;> rfl
    rw [hnull]
    exact readQuoted_escape (by decide) hescape
  · rw [hc, replaceNull, if_neg hne]
    exact readQuoted_cons hq hb rest

/-- **What is written for a string is decoded to that string.** -/
theorem readString_escaped (text : List Char) :
    readString '\x22' (text.flatMap escapeString ++ ['\x22']) =
      .ok (String.ofList (text.map replaceNull)) := by
  have h : readQuoted '\x22' (text.flatMap escapeString ++ ['\x22']) =
      some (text.map replaceNull, []) := by
    induction text with
    | nil => exact readQuoted_close '\x22' []
    | cons c rest ih =>
      rw [List.flatMap_cons, List.append_assoc, readQuoted_escapeString, ih]
      rfl
  rw [readString, h]

theorem map_replaceNull_eq_self_iff (text : List Char) :
    text.map replaceNull = text ↔ '\x00' ∉ text := by
  induction text with
  | nil => simp
  | cons c rest ih =>
    rw [List.map_cons, List.cons.injEq, ih, List.mem_cons, not_or]
    by_cases hc : c = '\x00'
    · simp [replaceNull, hc]
    · simp [replaceNull, hc, Ne.symm hc]

/-- What a string becomes by being written and decoded. -/
def replaceNulls (text : String) : String :=
  String.ofList (text.toList.map replaceNull)

theorem replaceNulls_eq_self_iff (text : String) :
    replaceNulls text = text ↔ '\x00' ∉ text.toList := by
  rw [← map_replaceNull_eq_self_iff, replaceNulls, ← String.toList_inj, String.toList_ofList]

/-! ## Nesting -/

variable {isSeparator : Char → Bool}

theorem digitChar_ne {n : Nat} (h : n < 16) :
    Nat.digitChar n ≠ '\\' ∧ Nat.digitChar n ≠ '\x22' := by
  have hall : ∀ n < 16, Nat.digitChar n ≠ '\\' ∧ Nat.digitChar n ≠ '\x22' := by decide
  exact hall n h

theorem quotedBody_escapeString (c : Char) {rest : List Char} (hrest : QuotedBody '\x22' rest) :
    QuotedBody '\x22' (escapeString c ++ rest) := by
  rcases escapeString_cases c with ⟨rfl, hc⟩ | ⟨hne, hlt, hc⟩ | ⟨hquote, hc⟩ | ⟨hne, hq, hb, hc⟩
  · rw [hc]
    exact .plain (by decide) (by decide) hrest
  · have hspace : QuotedBody '\x22' (' ' :: rest) := .plain (by decide) (by decide) hrest
    rw [hc]
    by_cases hlow : c.toNat < 16
    · rw [hexDigits_of_lt hlow]
      exact .escaped _ hspace
    · obtain ⟨hescape, hquote⟩ := digitChar_ne (Nat.mod_lt c.toNat (by decide : 0 < 16))
      rw [hexDigits_of_le (by omega) (by omega)]
      exact .escaped _ (.plain hquote hescape hspace)
  · rw [hc]
    exact .escaped c hrest
  · rw [hc]
    exact .plain hq hb hrest

theorem quotedBody_escaped (text : List Char) :
    QuotedBody '\x22' (text.flatMap escapeString) := by
  induction text with
  | nil => exact .nil
  | cons c rest ih => exact quotedBody_escapeString c ih

theorem toList_stringText (text : String) :
    (stringText text).toList = '\x22' :: (text.toList.flatMap escapeString ++ ['\x22']) := by
  simp [stringText]

theorem pass_stringText (text : String) (depth : Nat) :
    Text.pass isSeparator ⟨none, false, depth⟩ (stringText text).toList =
      some ⟨none, false, depth⟩ := by
  rw [toList_stringText]
  exact pass_string (by decide) (quotedBody_escaped text.toList) depth []

theorem piece_stringText (text : String) : Text.Piece (stringText text).toList := by
  refine ⟨by simp [toList_stringText], ?_, pass_stringText text 0⟩
  rw [toList_stringText]
  refine Text.Trimmed.cons (by decide) (by simp) fun c hc => ?_
  rw [List.getLast?_concat] at hc
  obtain rfl := Option.some.inj hc
  decide

end ComputedCss
