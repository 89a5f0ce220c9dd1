import ComputedCss.Number.Double
import ComputedCss.Proofs.Value.Calls
import ComputedCss.Proofs.Value.Numbers

/-!
# How a component is written

A text that is read as a component has one of five forms: a string between quotes, a colour after a
number sign, a number with a suffix, a call of a function, or an identifier. In none of them does a
comma or white space stand outside quotes and parentheses, so no such text is a list.

* `exists_body_of_readString`: a string that is decoded stands between two quotes.
* `spells_of_readTrimmed`: the form of a text that is read.
* `Spells.uncut`: nothing cuts a text of one of the forms.
* `read_eq_ok_iff_parse`: a text is read as a component exactly when it is read as a value that is
  one component.
-/

namespace ComputedCss

open Text Reading

/-! ## Strings -/

theorem toNat_lt_of_hexValue? {c : Char} {digit : Nat} (h : hexValue? c = some digit) :
    c.toNat < 128 := by
  unfold hexValue? at h
  split_ifs at h with hdigit hsmall hcapital
  · have hcode : c.toNat ≤ 57 := hdigit.2
    omega
  · have hcode : c.toNat ≤ 102 := hsmall.2
    omega
  · have hcode : c.toNat ≤ 70 := hcapital.2
    omega

theorem isNumberChar_of_hexValue? {c : Char} {digit : Nat} (h : hexValue? c = some digit) :
    isNumberChar c = true := by
  have hall : ∀ n < 128, (hexValue? (Char.ofNat n)).isSome = true →
      isNumberChar (Char.ofNat n) = true := by decide
  have hc := hall c.toNat (toNat_lt_of_hexValue? h)
  rw [Char.ofNat_toNat, h] at hc
  exact hc rfl

theorem exists_digits_of_readHex (limit code : Nat) (text : List Char) :
    ∃ digits, text = digits ++ (readHex limit code text).2 ∧
      ∀ c ∈ digits, isNumberChar c = true := by
  induction limit generalizing code text with
  | zero => exact ⟨[], by simp [readHex], by simp⟩
  | succ limit ih =>
    cases text with
    | nil => exact ⟨[], by simp [readHex], by simp⟩
    | cons c rest =>
      rw [readHex]
      cases hdigit : hexValue? c with
      | none => exact ⟨[], rfl, by simp⟩
      | some digit =>
        obtain ⟨digits, hrest, hdigits⟩ := ih (16 * code + digit) rest
        refine ⟨c :: digits, congrArg (c :: ·) hrest, fun d hd => ?_⟩
        rcases List.mem_cons.mp hd with rfl | hd
        · exact isNumberChar_of_hexValue? hdigit
        · exact hdigits d hd

theorem exists_space_of_dropSpace (text : List Char) :
    ∃ space, text = space ++ dropSpace text ∧ ∀ c ∈ space, isSpace c = true := by
  cases text with
  | nil => exact ⟨[], rfl, by simp⟩
  | cons c rest =>
    rw [dropSpace]
    split_ifs with hspace
    · exact ⟨[c], rfl, by simpa using hspace⟩
    · exact ⟨[], rfl, by simp⟩

theorem exists_of_readEscape {text rest : List Char} {c : Char}
    (h : readEscape text = some (c, rest)) :
    ∃ d more, text = d :: (more ++ rest) ∧
      ∀ e ∈ more, isNumberChar e = true ∨ isSpace e = true := by
  cases text with
  | nil => simp [readEscape] at h
  | cons d text =>
    rw [readEscape] at h
    cases hdigit : hexValue? d with
    | none =>
      rw [hdigit] at h
      obtain ⟨-, rfl⟩ : d = c ∧ text = rest := by simpa using h
      exact ⟨d, [], rfl, by simp⟩
    | some digit =>
      rw [hdigit] at h
      obtain ⟨-, rfl⟩ : _ ∧ dropSpace (readHex 5 digit text).2 = rest := by simpa using h
      obtain ⟨digits, htext, hdigits⟩ := exists_digits_of_readHex 5 digit text
      obtain ⟨space, hrest, hspace⟩ := exists_space_of_dropSpace (readHex 5 digit text).2
      refine ⟨d, digits ++ space, ?_, fun e he => ?_⟩
      · rw [List.append_assoc, ← hrest, ← htext]
      · rcases List.mem_append.mp he with he | he
        · exact .inl (hdigits e he)
        · exact .inr (hspace e he)

/-- What an escape takes after its first character is neither a quote nor a backslash. -/
theorem plain_of_escape {quote e : Char} (hquote : isQuote quote = true)
    (he : isNumberChar e = true ∨ isSpace e = true) : e ≠ quote ∧ e ≠ '\\' := by
  have hquotes : quote = '\x22' ∨ quote = '\x27' := by simpa [isQuote] using hquote
  constructor
  · rintro rfl
    rcases hquotes with rfl | rfl <;> exact absurd he (by decide)
  · rintro rfl
    exact absurd he (by decide)

theorem exists_body_of_readQuoted {quote : Char} (hquote : isQuote quote = true)
    {text cs rest : List Char} (h : readQuoted quote text = some (cs, rest)) :
    ∃ body, text = body ++ quote :: rest ∧ QuotedBody quote body := by
  induction text using readQuoted.induct quote generalizing cs with
  | case1 => simp [readQuoted] at h
  | case2 c text hclose =>
    obtain rfl := eq_of_beq hclose
    rw [readQuoted_close] at h
    obtain ⟨-, rfl⟩ : [] = cs ∧ text = rest := by simpa using h
    exact ⟨[], rfl, .nil⟩
  | case3 c text hclose hescape d text' hread ih =>
    obtain rfl := eq_of_beq hescape
    have hne : quote ≠ '\\' := by
      rintro rfl
      exact hclose rfl
    rw [readQuoted_escape hne hread] at h
    obtain ⟨⟨cs', rest'⟩, hrest, heq⟩ := Option.map_eq_some_iff.mp h
    obtain ⟨-, rfl⟩ : _ ∧ rest' = rest := by simpa using heq
    obtain ⟨body, hbody, hquoted⟩ := ih hrest
    obtain ⟨e, more, htext, hmore⟩ := exists_of_readEscape hread
    refine ⟨'\\' :: e :: (more ++ body), ?_, ?_⟩
    · rw [htext, hbody]
      simp
    · exact .escaped e (.append_plain (fun c hc => plain_of_escape hquote (hmore c hc)) hquoted)
  | case4 c text hclose hescape hread =>
    rw [readQuoted, if_neg hclose, if_pos hescape] at h
    split at h
    · rename_i heq
      rw [hread] at heq
      exact absurd heq (by simp)
    · exact absurd h (by simp)
  | case5 c text hclose hescape ih =>
    have hplain : c ≠ quote := by simpa using hclose
    have hbackslash : c ≠ '\\' := by simpa using hescape
    rw [readQuoted_cons hplain hbackslash] at h
    obtain ⟨⟨cs', rest'⟩, hrest, heq⟩ := Option.map_eq_some_iff.mp h
    obtain ⟨-, rfl⟩ : _ ∧ rest' = rest := by simpa using heq
    obtain ⟨body, rfl, hquoted⟩ := ih hrest
    exact ⟨c :: body, rfl, .plain hplain hbackslash hquoted⟩

theorem exists_body_of_readString {quote : Char} (hquote : isQuote quote = true)
    {text : List Char} {s : String} (h : readString quote text = .ok s) :
    ∃ body, text = body ++ [quote] ∧ QuotedBody quote body := by
  unfold readString at h
  split at h
  · exact absurd h (by simp)
  · rename_i cs hread
    exact exists_body_of_readQuoted hquote hread
  · exact absurd h (by simp)

/-! ## Numbers -/

namespace Numeral

/-- A character of a number token. -/
def IsTokenChar (c : Char) : Prop :=
  c.isDigit = true ∨ c ∈ ['+', '-', '.', 'e', 'E']

/-- What is left of a text after some characters of a number token. -/
def Leaves (text rest : List Char) : Prop :=
  ∃ front, text = front ++ rest ∧ ∀ c ∈ front, IsTokenChar c

theorem Leaves.refl (text : List Char) : Leaves text text :=
  ⟨[], rfl, by simp⟩

theorem Leaves.cons {c : Char} {text rest : List Char} (hc : IsTokenChar c) (h : Leaves text rest) :
    Leaves (c :: text) rest := by
  obtain ⟨front, rfl, hfront⟩ := h
  refine ⟨c :: front, rfl, fun d hd => ?_⟩
  rcases List.mem_cons.mp hd with rfl | hd
  · exact hc
  · exact hfront d hd

theorem Leaves.trans {text middle rest : List Char} (h : Leaves text middle)
    (hmiddle : Leaves middle rest) : Leaves text rest := by
  obtain ⟨front, rfl, hfront⟩ := h
  obtain ⟨back, rfl, hback⟩ := hmiddle
  refine ⟨front ++ back, by simp, fun c hc => ?_⟩
  rcases List.mem_append.mp hc with hc | hc
  · exact hfront c hc
  · exact hback c hc

theorem Leaves.length_le {text rest : List Char} (h : Leaves text rest) :
    rest.length ≤ text.length := by
  obtain ⟨front, rfl, -⟩ := h
  simp

theorem leaves_splitSign (text : List Char) : Leaves text (splitSign text).2 := by
  unfold splitSign
  split
  · exact .cons (.inr (by decide)) (.refl _)
  · exact .cons (.inr (by decide)) (.refl _)
  · exact .refl _

theorem leaves_splitDigits (text : List Char) : Leaves text (splitDigits text).2 := by
  refine ⟨(splitDigits text).1, List.takeWhile_append_dropWhile.symm, fun c hc => ?_⟩
  exact .inl (List.mem_takeWhile_imp hc)

theorem leaves_splitFraction (text : List Char) : Leaves text (splitFraction text).2 := by
  unfold splitFraction
  split
  · rename_i rest
    dsimp only
    split
    · exact .refl _
    · exact .cons (.inr (by decide)) (leaves_splitDigits rest)
  · exact .refl _

theorem leaves_splitExponent (text : List Char) : Leaves text (splitExponent text).2 := by
  unfold splitExponent
  split
  · rename_i c rest
    dsimp only
    by_cases he : (c == 'e' || c == 'E') = true
    · rw [if_pos he]
      have hc : IsTokenChar c := by
        right
        rcases Bool.or_eq_true_iff.mp he with h | h <;> obtain rfl := eq_of_beq h <;> decide
      by_cases hdigits : (splitDigits (splitSign rest).2).1.isEmpty = true
      · rw [if_pos hdigits]
        exact .refl _
      · rw [if_neg hdigits]
        exact .cons hc ((leaves_splitSign rest).trans (leaves_splitDigits _))
    · rw [if_neg he]
      exact .refl _
  · exact .refl _

theorem length_splitDigits (text : List Char) :
    (splitDigits text).1.length + (splitDigits text).2.length = text.length := by
  rw [← List.length_append]
  exact congrArg List.length List.takeWhile_append_dropWhile

theorem length_splitFraction_lt {text : List Char} (h : (splitFraction text).1 ≠ []) :
    (splitFraction text).2.length < text.length := by
  revert h
  unfold splitFraction
  split
  · rename_i rest
    dsimp only
    split
    · exact fun h => absurd rfl h
    · exact fun _ => Nat.lt_succ_of_le (leaves_splitDigits rest).length_le
  · exact fun h => absurd rfl h

theorem exists_front_of_scan {text rest : List Char} {numeral : Numeral}
    (h : scan text = some (numeral, rest)) :
    ∃ front, front ≠ [] ∧ text = front ++ rest ∧ ∀ c ∈ front, IsTokenChar c := by
  simp only [scan] at h
  split at h
  · exact absurd h (by simp)
  · rename_i hdigits
    obtain ⟨-, rfl⟩ : _ ∧ _ = rest := by simpa using h
    have hsign := leaves_splitSign text
    have hwhole := leaves_splitDigits (splitSign text).2
    have hfraction := leaves_splitFraction (splitDigits (splitSign text).2).2
    have hexponent := leaves_splitExponent (splitFraction (splitDigits (splitSign text).2).2).2
    obtain ⟨front, htext, hfront⟩ := ((hsign.trans hwhole).trans hfraction).trans hexponent
    refine ⟨front, ?_, htext, hfront⟩
    rintro rfl
    have hlength := congrArg List.length htext
    have hsum := length_splitDigits (splitSign text).2
    have hend := hexponent.length_le
    by_cases hnil : (splitDigits (splitSign text).2).1 = []
    · have hpoint : (splitFraction (splitDigits (splitSign text).2).2).1 ≠ [] := by
        intro hpoint
        rw [hnil, hpoint] at hdigits
        exact hdigits rfl
      have hlt := length_splitFraction_lt hpoint
      have := hsign.length_le
      have := hwhole.length_le
      rw [List.nil_append] at hlength
      omega
    · have hpos := List.length_pos_iff.mpr hnil
      have := hsign.length_le
      have := hfraction.length_le
      rw [List.nil_append] at hlength
      omega

end Numeral

theorem plain_of_isTokenChar {c : Char} (h : Numeral.IsTokenChar c) :
    isPlain c = true ∧ isBreak c = false ∧ isBlank c = false := by
  rcases h with hdigit | hmem
  · exact plain_of_isNumberChar (by simp [isNumberChar, Char.isAlphanum, hdigit])
  · simp only [List.mem_cons, List.not_mem_nil, or_false] at hmem
    rcases hmem with rfl | rfl | rfl | rfl | rfl <;> decide

/-! ## Forms -/

variable {ν : Type} [Scalar ν]

/-- The text has the form of a component of that kind. -/
inductive Spells : List Char → Primitive ν → Prop
  | string {quote : Char} {body : List Char} (s : String) : isQuote quote = true →
    QuotedBody quote body → Spells (quote :: (body ++ [quote])) (.string s)
  | color {digits : List Char} (color : Color) : (∀ c ∈ digits, isNumberChar c = true) →
    Spells ('#' :: digits) (.color color)
  | number {front suffix : List Char} {noted : Noted ValueType} (x : ν) : front ≠ [] →
    (∀ c ∈ front, Numeral.IsTokenChar c) → readSuffix suffix = some noted →
    Spells (front ++ suffix) (.numeric x noted.value)
  | call {name arguments : List Char} {p : Primitive ν} : isIdent name = true →
    Balanced arguments →
    result (readCall (callText name arguments) name (trim arguments)) = .ok p →
    Spells (callText name arguments) p
  | ident {name : List Char} : isIdent name = true → Spells name (.ident (String.ofList name))

theorem all_of_mapM_hexValue? {digits : List Char} {values : List Nat}
    (h : digits.mapM hexValue? = some values) : ∀ c ∈ digits, isNumberChar c = true := by
  induction digits generalizing values with
  | nil => simp
  | cons c rest ih =>
    rw [List.mapM_cons] at h
    obtain ⟨digit, hdigit, h⟩ := Option.bind_eq_some_iff.mp h
    obtain ⟨others, hothers, -⟩ := Option.bind_eq_some_iff.mp h
    intro d hd
    rcases List.mem_cons.mp hd with rfl | hd
    · exact isNumberChar_of_hexValue? hdigit
    · exact ih hothers d hd

theorem all_of_ofHex? {digits : List Char} {color : Color}
    (h : Color.ofHex? (String.ofList ('#' :: digits)) = some color) :
    ∀ c ∈ digits, isNumberChar c = true := by
  unfold Color.ofHex? at h
  rw [String.toList_ofList] at h
  cases hvalues : digits.mapM hexValue? with
  | none =>
    simp [hvalues] at h
  | some values => exact all_of_mapM_hexValue? hvalues

theorem callArguments?_eq_some {text arguments : List Char}
    (h : callArguments? text = some arguments) :
    ∃ between, text = between ++ [')'] ∧ arguments = trim between := by
  unfold callArguments? at h
  split_ifs at h with hlast
  obtain rfl := Option.some.inj h
  refine ⟨text.dropLast, ?_, rfl⟩
  exact (List.dropLast_append_getLast? ')' (eq_of_beq hlast)).symm

theorem eq_callText {text arguments : List Char}
    (h : callArguments? ((text.dropWhile (· != '(')).drop 1) = some arguments) :
    ∃ between, text = callText (text.takeWhile (· != '(')) between ∧ arguments = trim between := by
  obtain ⟨between, hrest, rfl⟩ := callArguments?_eq_some h
  refine ⟨between, ?_, rfl⟩
  have hsplit : text = text.takeWhile (· != '(') ++ text.dropWhile (· != '(') :=
    List.takeWhile_append_dropWhile.symm
  cases hdrop : text.dropWhile (· != '(') with
  | nil =>
    rw [hdrop] at hrest
    exact absurd hrest (by simp)
  | cons c rest =>
    have hc : c = '(' := by
      have hhead := List.head?_dropWhile_not (· != '(') text
      rw [hdrop] at hhead
      simpa using hhead
    rw [hdrop, List.drop_one, List.tail_cons] at hrest
    rw [hdrop, hc, hrest] at hsplit
    exact hsplit

theorem spells_of_readFunction {text : List Char} {p : Primitive ν}
    (h : result (readFunction text) = .ok p) : Spells text p := by
  obtain ⟨hname, arguments, harguments, hbalanced, hcall⟩ := result_readFunction_eq_ok.mp h
  obtain ⟨between, htext, rfl⟩ := eq_callText harguments
  have hspells : Spells (callText (text.takeWhile (· != '(')) between) p :=
    .call hname (balanced_of_trim hbalanced) (htext ▸ hcall)
  exact htext ▸ hspells

/-- **A text that is read as a component has the form of that component.** -/
theorem spells_of_readTrimmed {text : List Char} {p : Primitive ν}
    (h : result (readTrimmed text) = .ok p) : Spells text p := by
  unfold readTrimmed at h
  split at h
  · simp at h
  · rename_i c rest
    split_ifs at h with hquote hhash hnumber hcall hident
    · obtain ⟨s, hread, rfl⟩ := result_map_eq_ok.mp h
      obtain ⟨body, rfl, hbody⟩ := exists_body_of_readString hquote (result_ofText_eq_ok.mp hread)
      exact .string s hquote hbody
    · obtain rfl := eq_of_beq hhash
      unfold readHexColor at h
      split at h
      · rename_i color hcolor
        obtain rfl := Except.ok.inj h
        exact .color color (all_of_ofHex? hcolor)
      · simp at h
    · obtain ⟨⟨x, type⟩, hread, h⟩ := result_bind_eq_ok.mp h
      obtain rfl := Except.ok.inj h
      obtain ⟨numeral, suffix, noted, hscan, hsuffix, rfl, -⟩ := result_readNumeric_eq_ok.mp hread
      obtain ⟨front, hne, htext, hfront⟩ := Numeral.exists_front_of_scan hscan
      exact htext ▸ .number x hne hfront hsuffix
    · exact spells_of_readFunction h
    · obtain rfl := Except.ok.inj h
      exact .ident hident
    · simp at h

/-! ## Nothing is cut -/

theorem plain_of_readSuffix {suffix : List Char} {noted : Noted ValueType}
    (h : readSuffix suffix = some noted) :
    ∀ c ∈ suffix, isPlain c = true ∧ isBreak c = false := by
  have hident : isIdent suffix = true → ∀ c ∈ suffix, isPlain c = true ∧ isBreak c = false :=
    fun hident c hc =>
      have hpart := isIdentPart_of_isIdent hident c hc
      ⟨isPlain_of_isIdentPart hpart, isBreak_of_isIdentPart hpart⟩
  rcases readSuffix_cases h with ⟨rfl, -⟩ | ⟨rfl, -⟩ | ⟨hunit, -⟩ | ⟨hunit, -⟩
  · simp
  · intro c hc
    obtain rfl := List.mem_singleton.mp hc
    decide
  · exact hident hunit
  · exact hident hunit

theorem Spells.uncut {text : List Char} {p : Primitive ν} (h : Spells text p) : Uncut text := by
  cases h with
  | string s hquote hbody => exact pass_string hquote hbody 0 []
  | @color digits color hdigits =>
    apply uncut_of_isPlain
    intro c hc
    rcases List.mem_cons.mp hc with rfl | hc
    · decide
    · obtain ⟨hplain, hbreak, -⟩ := plain_of_isNumberChar (hdigits c hc)
      exact ⟨hplain, hbreak⟩
  | @number front suffix noted x hne hfront hsuffix =>
    apply uncut_of_isPlain
    intro c hc
    rcases List.mem_append.mp hc with hc | hc
    · obtain ⟨hplain, hbreak, -⟩ := plain_of_isTokenChar (hfront c hc)
      exact ⟨hplain, hbreak⟩
    · exact plain_of_readSuffix hsuffix c hc
  | @call name arguments p hname hbalanced hcall =>
    refine pass_call (fun c hc => ?_) hbalanced
    have hpart := isIdentPart_of_isIdent hname c hc
    exact ⟨isPlain_of_isIdentPart hpart, isBreak_of_isIdentPart hpart⟩
  | ident hname => exact uncut_of_isIdent hname

/-! ## A value that is one component -/

theorem isPlain_of_isBreak {c : Char} (h : isBreak c = true) : isPlain c = true := by
  rcases Bool.or_eq_true_iff.mp h with hcomma | hspace
  · obtain rfl := eq_of_beq hcomma
    decide
  · exact isPlain_of_isBlank (isBlank_of_isSpace hspace)

theorem isBreak_of_uncut {front back : List Char} {c : Char} (h : Uncut (front ++ c :: back))
    (hfront : Balanced front) : isBreak c = false := by
  rw [Uncut, pass_append] at h
  obtain ⟨next, hnext, hback⟩ := Option.bind_eq_some_iff.mp h
  have hnone : pass noSeparator .top front = some next := pass_mono (by simp) hnext
  obtain rfl : Nesting.top = next := Option.some.inj (hfront.symm.trans hnone)
  rw [Bool.eq_false_iff]
  intro hbreak
  have hplain := isPlain_of_isBreak hbreak
  have hcut : cuts isBreak .top c = true := cuts_top hbreak (by simpa [isPlain] using hplain)
  rw [Text.pass, if_pos hcut] at hback
  exact absurd hback (by simp)

theorem uncut_of_read {text : String} {p : Primitive ν}
    (h : result (Primitive.read text) = .ok p) : Uncut (trim text.toList) :=
  (spells_of_readTrimmed h).uncut

theorem parse_of_read {text : String} {p : Primitive ν}
    (h : result (Primitive.read text) = .ok p) : Value.parse? text = .ok (.single p) := by
  have huncut := uncut_of_read h
  have htrim : trim (trim text.toList) = trim text.toList := trim_eq_self (trimmed_trim _)
  have hne : trim text.toList ≠ [] := by
    intro hnil
    have hread : result (readTrimmed (trim text.toList)) = .ok p := h
    rw [hnil] at hread
    exact absurd hread (by simp [readTrimmed])
  have hcomma := splitTop_of_pass huncut.comma
  have hspace := piecesTop_of_pass hne (trimmed_trim _) huncut.space
  show result (readTrimmedValue (trim text.toList)) = _
  unfold readTrimmedValue
  rw [if_neg (by simpa using hne), result_bind_eq_ok]
  refine ⟨_, result_ofText_eq_ok.mpr hcomma, ?_⟩
  rw [if_neg (by simp), result_bind_eq_ok]
  refine ⟨_, result_ofText_eq_ok.mpr hspace, ?_⟩
  rw [if_neg (by simp), result_map_eq_ok]
  refine ⟨p, ?_, rfl⟩
  rw [readPrimitive, htrim]
  exact h

theorem read_of_parse {text : String} {p : Primitive ν}
    (h : Value.parse? text = .ok (.single p)) : result (Primitive.read text) = .ok p := by
  rcases result_readTrimmedValue_eq_ok h with ⟨pieces, items, -, -, -, heq⟩ |
    ⟨words, items, -, -, -, heq⟩ | ⟨q, hread, heq⟩
  · exact absurd heq (by simp)
  · exact absurd heq (by simp)
  · obtain rfl : p = q := by simpa using heq
    have htrim : trim (trim text.toList) = trim text.toList := trim_eq_self (trimmed_trim _)
    rw [readPrimitive, htrim] at hread
    exact hread

/-- **A text is read as a component exactly when it is read as a value that is that component.**
In such a text, with the blanks at its ends trimmed off, no comma and no white space stands outside
quotes and parentheses. -/
theorem read_eq_ok_iff_parse (text : String) (p : Primitive ν) :
    (result (Primitive.read text) = .ok p ↔ Value.parse? text = .ok (.single p)) ∧
    (result (Primitive.read text) = .ok p → ∀ front c back,
      trim text.toList = front ++ c :: back → Balanced front → c ≠ ',' ∧ isSpace c = false) := by
  refine ⟨⟨parse_of_read, read_of_parse⟩, fun h front c back htext hfront => ?_⟩
  have huncut : Uncut (front ++ c :: back) := htext ▸ uncut_of_read h
  have hbreak := isBreak_of_uncut huncut hfront
  simpa [isBreak] using hbreak

/-- Commas, quotes and parentheses in the string that joins nested counters. -/
theorem read_eq_ok_iff_parse_counters :
    ∃ p : Primitive Float,
      result (Primitive.read " counters( page , \"\\\" ,(\\29 \" ) ") = .ok p ∧
      Value.parse? " counters( page , \"\\\" ,(\\29 \" ) " = .ok (.single p) := by
  have hread : ∃ p : Primitive Float,
      result (Primitive.read " counters( page , \"\\\" ,(\\29 \" ) ") = .ok p :=
    ⟨_, by with_unfolding_all rfl⟩
  obtain ⟨p, hp⟩ := hread
  exact ⟨p, hp, (read_eq_ok_iff_parse _ p).1.mp hp⟩

end ComputedCss
