import ComputedCss.ComputedValue.Writers
import ComputedCss.Proofs.Value.RoundTrip

/-!
# Strings as literals

A string that the program writes is read as a string, whatever its characters are, and so is the
separator of a counter. Only null characters are replaced on the way.

* `parse_stringText`: a string alone.
* `parse_counters`: a counter with a separator, whose name is any identifier. White space outside
  ASCII can be part of an identifier, but not at the ends of an argument.
* `literals_readBack`: both, and what a computed value says after its string has been replaced.
-/

namespace ComputedCss

open Text Reading

variable {ν Context : Type} [Scalar ν]

theorem parse_stringText (s : String) :
    Value.parse? (stringText s) = .ok (.single (.string (replaceNulls s)) : Value ν) := by
  rw [parse_piece (piece_stringText s), result_readTrimmed_string]
  rfl

/-! ## The separator of a counter -/

/-- What follows the name in the arguments of a counter with a separator. -/
def afterName (s : String) : List Char :=
  ',' :: ' ' :: (stringText s).toList

theorem trimmed_afterName (s : String) : Trimmed (afterName s) := by
  have h := (piece_stringText s).trimmed.last
  refine Trimmed.cons (by decide) (by simp) fun c hc => h c ?_
  rwa [List.getLast?_cons_of_ne_nil (piece_stringText s).ne_nil] at hc

variable {name : List Char}

theorem uncut_trimStart (h : isIdent name = true) : Uncut (trimStart name) := by
  apply uncut_of_isPlain
  intro c hc
  have hpart := isIdentPart_of_isIdent h c ((List.dropWhile_sublist isBlank).subset hc)
  exact ⟨isPlain_of_isIdentPart hpart, isBreak_of_isIdentPart hpart⟩

theorem splitTop_counters (h : isIdent name = true) (s : String) :
    splitTop (· == ',') (trimStart name ++ afterName s) =
      .ok [trim name, (stringText s).toList] := by
  have hseparator : splitTop (· == ',') (' ' :: (stringText s).toList) =
      .ok [(stringText s).toList] := by
    rw [splitTop_cons_of_isBlank (by decide) (by decide) (by decide),
      splitTop_of_pass (piece_stringText s).uncut.comma, trim_eq_self (piece_stringText s).trimmed]
  rw [afterName, splitTop_append_separator (uncut_trimStart h).comma (by rfl) (by decide),
    hseparator, trim_trimStart]
  rfl

theorem balanced_counters (h : isIdent name = true) (s : String) :
    Balanced (trimStart name ++ afterName s) := by
  have hcomma : Nesting.top.step ',' = some .top := rfl
  have hspace : Nesting.top.step ' ' = some .top := rfl
  rw [afterName, Text.Balanced, pass_append_of_eq (uncut_trimStart h).balanced,
    pass_cons rfl hcomma, pass_cons rfl hspace]
  exact pass_stringText s 0

/-- The name of the function. -/
def countersName : List Char :=
  ['c', 'o', 'u', 'n', 't', 'e', 'r', 's']

omit [Scalar ν] in
theorem result_readCounters (h : isIdent name = true) (text : List Char) (s : String) :
    result (readCounters text (trimStart name ++ afterName s) : Reading ν Counter) =
      (result (readCounterName text (trim name) : Reading ν String)).map fun identifier =>
        ⟨identifier, none, some (replaceNulls s)⟩ := by
  rw [readCounters, result_bind_of_ok (result_ofText_eq_ok.mpr (splitTop_counters h s))]
  dsimp only
  rw [result_bind_of_ok (result_readCountersSeparator s), pure_bind, ← map_eq_pure_bind, result_map]

theorem toList_text_counters (name s : String) :
    (Primitive.counter ⟨name, none, some s⟩ : Primitive ν).text.toList =
      callText countersName (name.toList ++ afterName s) := by
  simp [Primitive.text, Counter.text, callText, countersName, afterName]

theorem parse_counters {name : String} (h : isIdent name.toList = true) (s : String) :
    Value.parse? (Primitive.counter ⟨name, none, some s⟩ : Primitive ν).text =
      if isIdent (trim name.toList) = true then
        .ok (.single (.counter ⟨trimmed name, none, some (replaceNulls s)⟩) : Value ν)
      else .error (.unreadable (Counter.text ⟨name, none, some s⟩) .counterArgument) := by
  have htrim : trim (name.toList ++ afterName s) = trimStart name.toList ++ afterName s :=
    trim_append (by simp [afterName]) (trimmed_afterName s) name.toList
  have hbalanced : Balanced (trim (name.toList ++ afterName s)) :=
    htrim ▸ balanced_counters h s
  have hname : IsName countersName := ⟨by decide, trimmed_of_all (by decide)⟩
  have hpiece : Piece (callText countersName (name.toList ++ afterName s)) :=
    piece_callText hname (balanced_of_trim hbalanced)
  have htext := toList_text_counters (ν := ν) name s
  rw [parse_piece (htext ▸ hpiece), htext, countersName,
    result_readTrimmed_of_balanced (by decide) (by decide) hbalanced, result_readCall_counters,
    htrim, result_readCounters h, readCounterName]
  by_cases hident : isIdent (trim name.toList) = true
  · rw [if_pos hident, if_pos hident]
    rfl
  · rw [if_neg hident, if_neg hident, result_fail, ← countersName, ← htext, String.ofList_toList]
    rfl

/-! ## Replacing a string -/

omit [Scalar ν] in
theorem declared_of_string {sheet : Sheet ν} {id : DeclarationId} {old : String}
    (h : (sheet.get id).value = .single (.string old)) : id < sheet.declarations.length := by
  by_contra hlength
  have habsent : sheet.get id = .absent := by
    rw [Sheet.get, List.getD_eq_getElem?_getD, List.getElem?_eq_none (not_lt.mp hlength)]
    rfl
  rw [habsent] at h
  exact absurd h (by simp [Declaration.absent])

theorem setString_of_string {v : ComputedValue ν Context} {sheet : Sheet ν} {old : String}
    (h : (sheet.get v.declaration).value = .single (.string old)) (s : String) :
    (v.setString s sheet).result = .ok () ∧
      (v.setString s sheet).subject.text (v.setString s sheet).sheet = stringText s := by
  have hprimitive : v.primitive sheet = .ok (.string old) := by
    rw [ComputedValue.primitive, h]
    rfl
  have houtcome : v.setString s sheet = v.replaceBy (.string s) sheet := by
    rw [ComputedValue.setString, hprimitive]
    rfl
  have hlength := declared_of_string h
  rw [houtcome]
  refine ⟨rfl, ?_⟩
  show ((sheet.write v.declaration (.ofPrimitive (.string s))).get v.declaration).text = _
  rw [Sheet.get_write_self hlength]
  rfl

/-! ## Literals -/

/-- **Strings are read back with their null characters replaced.** This holds of a string alone and
of the string that replaces another one. It holds of the separator of a counter exactly when the
name of the counter is an identifier also without the white space at its ends, which is dropped when
the arguments are read. -/
theorem literals_readBack :
    (∀ s, Value.parse? (Primitive.string s : Primitive ν).text =
      .ok (.single (.string (replaceNulls s)) : Value ν)) ∧
    (∀ name s, isIdent name.toList = true →
      Value.parse? (Primitive.counter ⟨name, none, some s⟩ : Primitive ν).text =
        if isIdent (trim name.toList) = true then
          .ok (.single (.counter ⟨trimmed name, none, some (replaceNulls s)⟩) : Value ν)
        else .error (.unreadable (Counter.text ⟨name, none, some s⟩) .counterArgument)) ∧
    ∀ (v : ComputedValue ν Context) (sheet : Sheet ν) (old s : String),
      (sheet.get v.declaration).value = .single (.string old) →
      (v.setString s sheet).result = .ok () ∧
      Value.parse? ((v.setString s sheet).subject.text (v.setString s sheet).sheet) =
        .ok (.single (.string (replaceNulls s)) : Value ν) := by
  refine ⟨parse_stringText, fun name s h => parse_counters h s, ?_⟩
  intro v sheet old s hold
  obtain ⟨hresult, htext⟩ := setString_of_string hold s
  rw [htext]
  exact ⟨hresult, parse_stringText s⟩

/-- A no-break space in front of a name is dropped, and a quote takes the place of a letter. -/
theorem literals_readBack_noBreak :
    isIdent "\u00a0a".toList = true ∧
    Value.parse? (Primitive.counter ⟨"\u00a0a", none, some "\x00"⟩ : Primitive Float).text =
      .ok (.single (.counter ⟨"a", none, some "\ufffd"⟩) : Value Float) ∧
    let sheet : Sheet Float := ⟨[.ofPrimitive (.string "a")], []⟩
    let written := (ComputedValue.ofDeclaration 0 (none : Option Unit) .standard sheet).1.setString
      "\x22" sheet
    written.result = .ok () ∧ Value.parse? (written.subject.text written.sheet) =
      .ok (.single (.string "\x22") : Value Float) := by
  have hident : isIdent "\u00a0a".toList = true := by decide
  have hname : trimmed "\u00a0a" = "a" := by decide +kernel
  have hnull : replaceNulls "\x00" = "\ufffd" := by decide +kernel
  have hquote : replaceNulls "\x22" = "\x22" := by decide +kernel
  obtain ⟨-, hcounters, hstrings⟩ := @literals_readBack Float Unit _
  refine ⟨hident, ?_, ?_⟩
  · rw [hcounters _ _ hident, if_pos (by decide), hname, hnull]
  · intro sheet written
    rw [← hquote]
    exact hstrings _ sheet "a" "\x22" rfl

/-- A name of nothing but white space is an identifier, and its counter is not read back. -/
theorem not_separator_readBack :
    isIdent "\u00a0".toList = true ∧
    ¬ ∃ counter : Counter, counter.separator = some (replaceNulls "s") ∧
      Value.parse? (Primitive.counter ⟨"\u00a0", none, some "s"⟩ : Primitive Float).text =
        .ok (.single (.counter counter) : Value Float) := by
  have hident : isIdent "\u00a0".toList = true := by decide
  refine ⟨hident, ?_⟩
  rintro ⟨counter, -, hcounter⟩
  rw [parse_counters hident, if_neg (by decide)] at hcounter
  exact absurd hcounter (by simp)

end ComputedCss
