import ComputedCss.Proofs.Text.TopLevel
import ComputedCss.Proofs.Value.Addresses

/-!
# Where a string ends

Two scans look for the end of a string. The split of the top level takes one character after a
backslash, and the decoder takes a whole escape, up to six digits and a white space. They agree,
because what the decoder takes in addition cannot close the string.

* `StringEndsAt`: the position at which the scan of the top level first leaves a string.
* `stringEndsAt_iff`: between the quote at the front and that position stands a `QuotedBody`.
* `Decoding`: what the decoder still has before it in the course of its run.
* `readQuoted_eq_none_iff`: where the decoder fails.
* `string_ends_with_scan`: the decoder ends where the scan leaves the string, and does not fail on
  what splitting has accepted.
-/

namespace ComputedCss

open Text Reading

variable {isSeparator : Char → Bool} {quote : Char} {body more rest text : List Char} {k : Nat}

/-! ## The end by the scan of the top level -/

/-- The place of the scan after so many characters of a text. -/
def scanTo (text : List Char) (n : Nat) : Option Nesting :=
  (text.take n).foldlM Nesting.step .top

/-- The scan is in a string before this character, and in none after it. -/
def LeavesStringAt (text : List Char) (k : Nat) : Prop :=
  ∃ before after, scanTo text k = some before ∧ scanTo text (k + 1) = some after ∧
    before.quote.isSome = true ∧ after.quote = none

/-- The first position at which the scan leaves a string. -/
def StringEndsAt (text : List Char) (k : Nat) : Prop :=
  LeavesStringAt text k ∧ ∀ j < k, ¬ LeavesStringAt text j

theorem StringEndsAt.unique {j : Nat} (hk : StringEndsAt text k) (hj : StringEndsAt text j) :
    k = j :=
  le_antisymm (not_lt.mp fun hlt => hk.2 j hlt hj.1) (not_lt.mp fun hlt => hj.2 k hlt hk.1)

theorem scanTo_quoted (hquote : isQuote quote = true) (n : Nat) :
    scanTo (quote :: rest) (n + 1) = pass noSeparator ⟨some quote, false, 0⟩ (rest.take n) := by
  rw [scanTo, List.take_succ_cons, ← pass_noSeparator,
    pass_cons (by simp [Text.cuts]) (step_top_of_isQuote hquote)]

theorem scanTo_body (hquote : isQuote quote = true) (hbody : QuotedBody quote body) {n : Nat}
    (hn : n ≤ body.length) (more : List Char) :
    ∃ escaped, scanTo (quote :: (body ++ quote :: more)) (n + 1) =
      some ⟨some quote, escaped, 0⟩ := by
  rw [scanTo_quoted hquote, List.take_append_of_le_length hn]
  exact hbody.pass_of_prefix (List.take_prefix n body)

theorem scanTo_close (hquote : isQuote quote = true) (hbody : QuotedBody quote body) :
    scanTo (quote :: (body ++ quote :: more)) (body.length + 1 + 1) = some .top := by
  have htake : (body ++ quote :: more).take (body.length + 1) = body ++ [quote] := by
    rw [List.take_length_add_append]
    rfl
  rw [scanTo_quoted hquote, htake, pass_append_of_eq hbody.pass,
    pass_cons (cuts_quoted _ _ _ _) (step_close (ne_backslash_of_isQuote hquote) 0)]
  rfl

theorem stringEndsAt_body (hquote : isQuote quote = true) (hbody : QuotedBody quote body) :
    StringEndsAt (quote :: (body ++ quote :: more)) (body.length + 1) := by
  constructor
  · obtain ⟨escaped, hbefore⟩ := scanTo_body hquote hbody le_rfl more
    exact ⟨_, _, hbefore, scanTo_close hquote hbody, rfl, rfl⟩
  · rintro j hj ⟨before, after, -, hafter, -, hnone⟩
    obtain ⟨escaped, hscan⟩ := scanTo_body hquote hbody (Nat.le_of_lt_succ hj) more
    obtain rfl := Option.some.inj (hscan.symm.trans hafter)
    exact absurd hnone (by simp)

/-- **A string ends after what may stand between two quotes.** -/
theorem stringEndsAt_iff (hquote : isQuote quote = true) :
    StringEndsAt (quote :: rest) k ↔
      ∃ body more, rest = body ++ quote :: more ∧ QuotedBody quote body ∧ k = body.length + 1 := by
  constructor
  · intro h
    obtain ⟨before, after, -, hafter, -, hnone⟩ := h.1
    rw [scanTo_quoted hquote] at hafter
    obtain ⟨body, between, htake, hbody, -⟩ := exists_body_of_pass hafter hnone
    have hrest : rest = body ++ quote :: (between ++ rest.drop k) := by
      calc rest = rest.take k ++ rest.drop k := (List.take_append_drop k rest).symm
        _ = body ++ quote :: (between ++ rest.drop k) := by rw [htake]; simp
    refine ⟨body, between ++ rest.drop k, hrest, hbody, h.unique ?_⟩
    rw [hrest]
    exact stringEndsAt_body hquote hbody
  · rintro ⟨body, more, rfl, hbody, rfl⟩
    exact stringEndsAt_body hquote hbody

/-! ## The end by the decoder -/

/-- What the decoder has before it at some time, when it begins before `text`: it goes on past a
character that stands for itself, and past an escape. -/
inductive Decoding (quote : Char) : List Char → List Char → Prop
  | here {text : List Char} : Decoding quote text text
  | plain {c : Char} {rest later : List Char} : c ≠ quote → c ≠ '\\' →
    Decoding quote rest later → Decoding quote (c :: rest) later
  | escape {c : Char} {rest rest' later : List Char} : readEscape rest = some (c, rest') →
    Decoding quote rest' later → Decoding quote ('\\' :: rest) later

theorem readQuoted_of_readEscape_eq_none (hquote : quote ≠ '\\') (h : readEscape rest = none) :
    readQuoted quote ('\\' :: rest) = none := by
  rw [readQuoted, if_neg (by simpa using hquote.symm), if_pos (by simp)]
  split
  · rename_i heq
    rw [h] at heq
    exact absurd heq (by simp)
  · rfl

theorem Decoding.readQuoted_eq_none {later : List Char} (hquote : quote ≠ '\\')
    (h : Decoding quote text later) (hlater : readQuoted quote later = none) :
    readQuoted quote text = none := by
  induction h with
  | here => exact hlater
  | plain hc hescape _ ih => rw [readQuoted_cons hc hescape, ih hlater, Option.map_none]
  | escape hread _ ih => rw [readQuoted_escape hquote hread, ih hlater, Option.map_none]

theorem readQuoted_eq_none_iff (hquote : quote ≠ '\\') :
    readQuoted quote text = none ↔
      Decoding quote text [] ∨
        ∃ later, Decoding quote text ('\\' :: later) ∧ readEscape later = none := by
  constructor
  · intro h
    induction text using readQuoted.induct quote with
    | case1 => exact .inl .here
    | case2 c rest hclose =>
      obtain rfl := eq_of_beq hclose
      rw [readQuoted_close] at h
      exact absurd h (by simp)
    | case3 c rest hclose hescape d rest' hread ih =>
      obtain rfl := eq_of_beq hescape
      rw [readQuoted_escape hquote hread, Option.map_eq_none_iff] at h
      rcases ih h with hend | ⟨later, hlater, hnone⟩
      · exact .inl (.escape hread hend)
      · exact .inr ⟨later, .escape hread hlater, hnone⟩
    | case4 c rest hclose hescape hread =>
      obtain rfl := eq_of_beq hescape
      exact .inr ⟨rest, .here, hread⟩
    | case5 c rest hclose hescape ih =>
      have hplain : c ≠ quote := by simpa using hclose
      have hbackslash : c ≠ '\\' := by simpa using hescape
      rw [readQuoted_cons hplain hbackslash, Option.map_eq_none_iff] at h
      rcases ih h with hend | ⟨later, hlater, hnone⟩
      · exact .inl (.plain hplain hbackslash hend)
      · exact .inr ⟨later, .plain hplain hbackslash hlater, hnone⟩
  · rintro (hend | ⟨later, hlater, hnone⟩)
    · exact hend.readQuoted_eq_none hquote (by rw [readQuoted])
    · exact hlater.readQuoted_eq_none hquote (readQuoted_of_readEscape_eq_none hquote hnone)

theorem readQuoted_cases (hquote : isQuote quote = true) (rest : List Char) :
    (readQuoted quote rest = none ∧ ∀ k, ¬ StringEndsAt (quote :: rest) k) ∨
    ∃ cs more k, readQuoted quote rest = some (cs, more) ∧ StringEndsAt (quote :: rest) k ∧
      k + 1 + more.length = (quote :: rest).length := by
  cases hread : readQuoted quote rest with
  | none =>
    refine .inl ⟨rfl, fun k hk => ?_⟩
    obtain ⟨body, more, rfl, hbody, -⟩ := (stringEndsAt_iff hquote).mp hk
    obtain ⟨cs, hsome, -⟩ := readQuoted_of_quotedBody hquote hbody more
    rw [hread] at hsome
    exact absurd hsome (by simp)
  | some found =>
    obtain ⟨cs, more⟩ := found
    obtain ⟨body, rfl, hbody⟩ := exists_body_of_readQuoted hquote hread
    refine .inr ⟨cs, more, body.length + 1, rfl, stringEndsAt_body hquote hbody, ?_⟩
    simp only [List.length_cons, List.length_append]
    omega

/-! ## What splitting has accepted -/

theorem balanced_of_mem_splitTop {piece : List Char} {pieces : List (List Char)}
    (h : splitTop isSeparator text = .ok pieces) (hpiece : piece ∈ pieces) : Balanced piece := by
  obtain ⟨first, others, hsplit, rfl⟩ := exists_splitFrom_of_splitTop h
  obtain ⟨cutting, hexact, -, hparts⟩ := exists_cutting_of_splitFrom hsplit
  obtain ⟨part, hpart, rfl⟩ := List.mem_map.mp hpiece
  have hpass := pass_trim (hexact.closed part (hparts ▸ hpart)).pass
  exact pass_mono (fun c hc => absurd hc (by simp)) hpass

/-- **The decoder of a string ends where the scan of the top level leaves the string.** A text that
begins with a quote is a string exactly if the scan leaves the string at the last character; the
decoder calls it unterminated exactly if the scan never leaves the string, and finds text after it
exactly if the scan leaves it earlier. So in a piece that splitting has accepted no string is
unterminated, and whatever stands behind a backslash when the decoder comes to it is an escape. -/
theorem string_ends_with_scan :
    (∀ quote rest, isQuote quote = true →
      ((∃ s, readString quote rest = .ok s) ↔
        ∃ k, StringEndsAt (quote :: rest) k ∧ k + 1 = (quote :: rest).length) ∧
      (readString quote rest = .error .unterminatedString ↔
        ¬ ∃ k, StringEndsAt (quote :: rest) k) ∧
      (readString quote rest = .error .textAfterString ↔
        ∃ k, StringEndsAt (quote :: rest) k ∧ k + 1 < (quote :: rest).length)) ∧
    ∀ isSeparator text pieces quote rest, splitTop isSeparator text = .ok pieces →
      quote :: rest ∈ pieces → isQuote quote = true →
      readString quote rest ≠ .error .unterminatedString ∧
        ∀ later, Decoding quote rest ('\\' :: later) →
          ∃ c after, readEscape later = some (c, after) := by
  constructor
  · intro quote rest hquote
    rcases readQuoted_cases hquote rest with ⟨hread, hnever⟩ | ⟨cs, more, k, hread, hend, hlength⟩
    · -- The scan stays in the string.
      have hfail : readString quote rest = .error .unterminatedString := by rw [readString, hread]
      simp [hfail, hnever]
    · have hk : ∀ {j}, StringEndsAt (quote :: rest) j → j = k := fun hj => hj.unique hend
      cases more with
      | nil =>
        have hok : readString quote rest = .ok (String.ofList cs) := by rw [readString, hread]
        rw [List.length_nil, Nat.add_zero] at hlength
        refine ⟨⟨fun _ => ⟨k, hend, hlength⟩, fun _ => ⟨_, hok⟩⟩, ?_, ?_⟩
        · simpa [hok] using ⟨k, hend⟩
        · rw [hok]
          refine ⟨fun h => absurd h (by simp), ?_⟩
          rintro ⟨j, hj, hlt⟩
          obtain rfl := hk hj
          exact absurd hlength hlt.ne
      | cons c more =>
        have hfail : readString quote rest = .error .textAfterString := by rw [readString, hread]
        have hlt : k + 1 < (quote :: rest).length := by
          rw [← hlength, List.length_cons]
          omega
        refine ⟨?_, ?_, ⟨fun _ => ⟨k, hend, hlt⟩, fun _ => hfail⟩⟩
        · rw [hfail]
          refine ⟨fun h => absurd h (by simp), ?_⟩
          rintro ⟨j, hj, hlast⟩
          obtain rfl := hk hj
          exact absurd hlast hlt.ne
        · simpa [hfail] using ⟨k, hend⟩
  · intro isSeparator text pieces quote rest hsplit hpiece hquote
    obtain ⟨body, more, rfl, hbody, -⟩ :=
      (balanced_quoted_iff hquote).mp (balanced_of_mem_splitTop hsplit hpiece)
    obtain ⟨cs, hread, -⟩ := readQuoted_of_quotedBody hquote hbody more
    refine ⟨?_, fun later hlater => ?_⟩
    · rw [readString, hread]
      cases more <;> simp
    · cases hescape : readEscape later with
      | some found => exact ⟨found.1, found.2, rfl⟩
      | none =>
        have hbackslash := ne_backslash_of_isQuote hquote
        have hnone := hlater.readQuoted_eq_none hbackslash
          (readQuoted_of_readEscape_eq_none hbackslash hescape)
        rw [hread] at hnone
        exact absurd hnone (by simp)

/-- The code of the quote itself, ended by a space, does not end the string. -/
theorem string_ends_with_scan_codeOfQuote :
    isQuote '\x22' = true ∧ readString '\x22' "\\22 \"".toList = .ok "\"" ∧
    (∃ k, StringEndsAt ('\x22' :: "\\22 \"".toList) k ∧
      k + 1 = ('\x22' :: "\\22 \"".toList).length) ∧
    splitTop (· == ',') "\"\\22 \", b".toList =
      .ok ['\x22' :: "\\22 \"".toList, "b".toList] ∧
    readString '\x22' "\\22 \"".toList ≠ .error .unterminatedString := by
  have hquote : isQuote '\x22' = true := by decide
  have hread : readString '\x22' "\\22 \"".toList = .ok "\"" := by with_unfolding_all rfl
  have hsplit : splitTop (· == ',') "\"\\22 \", b".toList =
      .ok ['\x22' :: "\\22 \"".toList, "b".toList] := by decide +kernel
  have hall := string_ends_with_scan
  exact ⟨hquote, hread, (hall.1 _ _ hquote).1.mp ⟨_, hread⟩, hsplit,
    (hall.2 _ _ _ _ _ hsplit List.mem_cons_self hquote).1⟩

end ComputedCss
