import ComputedCss.Proofs.Value.Strings
import ComputedCss.Proofs.Value.WellFormed

/-!
# Calls of functions read back

A name and its arguments between parentheses. Addresses, attribute names, counters and rectangles
are written in this way.

* `result_readTrimmed_call`: a call is read as a component exactly when its arguments are balanced
  and the function accepts them.
* `result_readCall_parts`: the arguments of a counter are read as they were written, except for null
  characters in the separator.
-/

namespace ComputedCss

open Text Reading

variable {ν : Type}

/-! ## Calls -/

/-- A name with arguments between parentheses. -/
def callText (name arguments : List Char) : List Char :=
  name ++ '(' :: (arguments ++ [')'])

theorem piece_of_isName {text : List Char} (h : IsName text) : Piece text :=
  ⟨ne_nil_of_isIdent h.isIdent, h.trimmed, uncut_of_isIdent h.isIdent⟩

theorem trimmed_callText {name arguments : List Char} (h : IsName name) :
    Trimmed (callText name arguments) :=
  Trimmed.append (ne_nil_of_isIdent h.isIdent) (by simp) h.trimmed.head (by
    intro c hc
    rw [← List.cons_append, List.getLast?_concat] at hc
    obtain rfl := Option.some.inj hc
    decide)

theorem piece_callText {name arguments : List Char} (h : IsName name)
    (harguments : Balanced arguments) : Piece (callText name arguments) := by
  refine ⟨by simp [callText], trimmed_callText h, pass_call (fun c hc => ?_) harguments⟩
  have hpart := isIdentPart_of_isIdent h.isIdent c hc
  exact ⟨isPlain_of_isIdentPart hpart, isBreak_of_isIdentPart hpart⟩

theorem ne_opening_of_isIdent {name : List Char} (h : isIdent name = true) :
    ∀ c ∈ name, (c != '(') = true := by
  intro c hc
  have hpart := isIdentPart_of_isIdent h c hc
  rw [bne_iff_ne]
  rintro rfl
  exact absurd hpart (by decide)

theorem takeWhile_callText {name : List Char} (h : isIdent name = true) (arguments : List Char) :
    (callText name arguments).takeWhile (· != '(') = name := by
  rw [callText, List.takeWhile_append_of_pos (ne_opening_of_isIdent h)]
  simp

theorem dropWhile_callText {name : List Char} (h : isIdent name = true) (arguments : List Char) :
    (callText name arguments).dropWhile (· != '(') = '(' :: (arguments ++ [')']) := by
  rw [callText, List.dropWhile_append_of_pos (ne_opening_of_isIdent h)]
  simp

theorem callArguments?_closed (arguments : List Char) :
    callArguments? (arguments ++ [')']) = some (trim arguments) := by
  simp [callArguments?]

variable [Scalar ν]

theorem readTrimmed_of_isIdentPart {c : Char} {rest : List Char} (hpart : isIdentPart c = true)
    (hnumber : startsNumber (c :: rest) = false) :
    readTrimmed (c :: rest) =
      if (c :: rest).contains '(' then (readFunction (c :: rest) : Reading ν (Primitive ν))
      else if isIdent (c :: rest) then pure (.ident (String.ofList (c :: rest)))
      else fail (c :: rest) .unrecognized := by
  have hquote : ¬ isQuote c = true := by
    intro hquote
    have hplain := isPlain_of_isIdentPart hpart
    rw [isPlain, hquote] at hplain
    exact absurd hplain (by simp)
  have hhash : ¬ (c == '#') = true := by
    rw [beq_iff_eq]
    rintro rfl
    exact absurd hpart (by decide)
  rw [readTrimmed, if_neg hquote, if_neg hhash, if_neg (by rw [hnumber]; exact Bool.false_ne_true)]

theorem readTrimmed_of_call {c : Char} {rest : List Char} (hc : isIdentStart c = true)
    (hcall : (c :: rest).contains '(' = true) :
    readTrimmed (c :: rest) = (readFunction (c :: rest) : Reading ν (Primitive ν)) := by
  rw [readTrimmed_of_isIdentPart (isIdentPart_of_isIdentStart hc)
    (startsNumber_cons_of_isIdentStart hc rest), if_pos hcall]

theorem result_readTrimmed_call {c : Char} {name : List Char} (hc : isIdentStart c = true)
    (hname : name.all isIdentPart = true) (arguments : List Char) {p : Primitive ν} :
    result (readTrimmed (callText (c :: name) arguments)) = .ok p ↔
      Balanced (trim arguments) ∧
      result (readCall (callText (c :: name) arguments) (c :: name) (trim arguments)) = .ok p := by
  have hident := isIdent_cons hc hname
  have hcall : (callText (c :: name) arguments).contains '(' = true := by simp [callText]
  have hread : readTrimmed (callText (c :: name) arguments) =
      (readFunction (callText (c :: name) arguments) : Reading ν (Primitive ν)) :=
    readTrimmed_of_call hc hcall
  rw [hread, result_readFunction_eq_ok, takeWhile_callText hident, dropWhile_callText hident,
    List.drop_one, List.tail_cons, callArguments?_closed]
  simp [hident]

theorem result_readTrimmed_of_balanced {c : Char} {name : List Char} (hc : isIdentStart c = true)
    (hname : name.all isIdentPart = true) {arguments : List Char}
    (hbalanced : Balanced (trim arguments)) :
    result (readTrimmed (callText (c :: name) arguments) : Reading ν (Primitive ν)) =
      result (readCall (callText (c :: name) arguments) (c :: name) (trim arguments)) := by
  have hident := isIdent_cons hc hname
  rw [callText, List.cons_append, readTrimmed_of_call hc (by simp), ← List.cons_append, ← callText,
    readFunction, takeWhile_callText hident, dropWhile_callText hident, if_pos hident,
    List.drop_one, List.tail_cons, callArguments?_closed]
  exact result_bind_of_ok (result_ofText_eq_ok.mpr (checkNesting_eq_ok.mpr hbalanced)) _

/-! ## What the functions answer -/

variable {text arguments : List Char}

theorem result_readCall_url :
    result (readCall text ['u', 'r', 'l'] arguments : Reading ν (Primitive ν)) =
      .ok (.uri (String.ofList (unquote arguments))) := by
  have hname : (String.ofList ['u', 'r', 'l']).toLower = "url" := by decide +kernel
  unfold readCall
  rw [hname]
  rfl

theorem result_readCall_attr (h : isIdent arguments = true) :
    result (readCall text ['a', 't', 't', 'r'] arguments : Reading ν (Primitive ν)) =
      .ok (.attr (String.ofList arguments)) := by
  have hname : (String.ofList ['a', 't', 't', 'r']).toLower = "attr" := by decide +kernel
  unfold readCall
  rw [hname, h]
  rfl

theorem result_readCall_counter :
    result (readCall text ['c', 'o', 'u', 'n', 't', 'e', 'r'] arguments : Reading ν (Primitive ν)) =
      (result (readCounter text arguments : Reading ν Counter)).map .counter := by
  have hname : (String.ofList ['c', 'o', 'u', 'n', 't', 'e', 'r']).toLower = "counter" := by
    decide +kernel
  unfold readCall
  rw [hname, ← result_map]
  rfl

theorem result_readCall_counters :
    result (readCall text ['c', 'o', 'u', 'n', 't', 'e', 'r', 's'] arguments :
      Reading ν (Primitive ν)) =
      (result (readCounters text arguments : Reading ν Counter)).map .counter := by
  have hname : (String.ofList ['c', 'o', 'u', 'n', 't', 'e', 'r', 's']).toLower = "counters" := by
    decide +kernel
  unfold readCall
  rw [hname, ← result_map]
  rfl

theorem result_readCall_rect :
    result (readCall text ['r', 'e', 'c', 't'] arguments : Reading ν (Primitive ν)) =
      (result (readRect text arguments)).map .rect := by
  have hname : (String.ofList ['r', 'e', 'c', 't']).toLower = "rect" := by decide +kernel
  unfold readCall
  rw [hname, ← result_map]
  rfl

/-! ## Counters -/

namespace Counter

variable {counter : Counter}

/-- The name of the function that a counter is written with. -/
def function (counter : Counter) : List Char :=
  match counter.separator with
  | none => ['c', 'o', 'u', 'n', 't', 'e', 'r']
  | some _ => ['c', 'o', 'u', 'n', 't', 'e', 'r', 's']

theorem function_cases (counter : Counter) : ∃ c name, counter.function = c :: name ∧
    isIdentStart c = true ∧ name.all isIdentPart = true ∧ Trimmed (c :: name) := by
  unfold function
  cases counter.separator with
  | none => exact ⟨_, _, rfl, by decide, by decide, trimmed_of_all (by decide)⟩
  | some separator => exact ⟨_, _, rfl, by decide, by decide, trimmed_of_all (by decide)⟩

/-- The arguments of a counter in the order in which they are written. -/
def parts (counter : Counter) : List (List Char) :=
  counter.identifier.toList :: (counter.separator.toList.map (fun s => (stringText s).toList) ++
    counter.listStyle.toList.map String.toList)

theorem toList_text (counter : Counter) :
    counter.text.toList = callText counter.function ([',', ' '].intercalate counter.parts) := by
  obtain ⟨identifier, listStyle, separator⟩ := counter
  cases separator <;> cases listStyle <;>
    simp [text, function, parts, callText, List.intercalate_cons_cons]

theorem piece_of_mem_parts (h : counter.WellFormed) : ∀ part ∈ counter.parts, Piece part := by
  intro part hpart
  simp only [parts, List.mem_cons, List.mem_append, List.mem_map, Option.mem_toList] at hpart
  rcases hpart with rfl | ⟨separator, -, rfl⟩ | ⟨style, hstyle, rfl⟩
  · exact piece_of_isName h.identifier
  · exact piece_stringText separator
  · exact piece_of_isName (h.listStyle style hstyle)

theorem splitTop_parts (h : counter.WellFormed) :
    splitTop (· == ',') ([',', ' '].intercalate counter.parts) = .ok counter.parts :=
  splitTop_comma (by simp [parts]) (piece_of_mem_parts h)

/-- A counter with its null characters replaced. -/
def replaceNulls (counter : Counter) : Counter :=
  { counter with separator := counter.separator.map ComputedCss.replaceNulls }

theorem replaceNulls_eq_self_iff (counter : Counter) :
    counter.replaceNulls = counter ↔ ∀ s ∈ counter.separator, '\x00' ∉ s.toList := by
  obtain ⟨identifier, listStyle, separator⟩ := counter
  cases separator with
  | none => simp [replaceNulls]
  | some separator => simp [replaceNulls, ComputedCss.replaceNulls_eq_self_iff]

end Counter

omit [Scalar ν] in
theorem result_readCounterName_toList {name : String} (h : IsName name.toList) :
    result (readCounterName text name.toList : Reading ν String) = .ok name :=
  result_readCounterName_eq_ok.mpr ⟨h.isIdent, String.ofList_toList.symm⟩

omit [Scalar ν] in
theorem result_readCountersSeparator (separator : String) :
    result (readCountersSeparator text (stringText separator).toList : Reading ν String) =
      .ok (replaceNulls separator) := by
  rw [toList_stringText, readCountersSeparator, if_pos (by decide), result_ofText_eq_ok]
  exact readString_escaped separator.toList

theorem result_readCall_parts {counter : Counter} (h : counter.WellFormed) :
    result (readCall text counter.function ([',', ' '].intercalate counter.parts) :
      Reading ν (Primitive ν)) = .ok (.counter counter.replaceNulls) := by
  have hsplit := Counter.splitTop_parts h
  obtain ⟨identifier, listStyle, separator⟩ := counter
  have hidentifier : result (readCounterName text identifier.toList : Reading ν String) =
      .ok identifier := result_readCounterName_toList h.identifier
  have hstyle : ∀ style ∈ listStyle, result (readCounterName text style.toList : Reading ν String) =
      .ok style := fun style hmem => result_readCounterName_toList (h.listStyle style hmem)
  cases separator with
  | none =>
    have hread : result (readCounter text ([',', ' '].intercalate
        (Counter.parts ⟨identifier, listStyle, none⟩)) : Reading ν Counter) =
        .ok ⟨identifier, listStyle, none⟩ := by
      refine result_bind_eq_ok.mpr ⟨_, result_ofText_eq_ok.mpr hsplit, ?_⟩
      cases listStyle with
      | none => exact result_bind_eq_ok.mpr ⟨_, hidentifier, rfl⟩
      | some style =>
        refine result_bind_eq_ok.mpr ⟨_, hidentifier, ?_⟩
        exact result_bind_eq_ok.mpr ⟨_, hstyle style rfl, rfl⟩
    rw [Counter.function, result_readCall_counter, hread]
    rfl
  | some separator =>
    have hread : result (readCounters text ([',', ' '].intercalate
        (Counter.parts ⟨identifier, listStyle, some separator⟩)) : Reading ν Counter) =
        .ok ⟨identifier, listStyle, some (replaceNulls separator)⟩ := by
      refine result_bind_eq_ok.mpr ⟨_, result_ofText_eq_ok.mpr hsplit, ?_⟩
      refine result_bind_eq_ok.mpr ⟨_, result_readCountersSeparator separator, ?_⟩
      cases listStyle with
      | none =>
        refine result_bind_eq_ok.mpr ⟨none, rfl, ?_⟩
        exact result_bind_eq_ok.mpr ⟨_, hidentifier, rfl⟩
      | some style =>
        refine result_bind_eq_ok.mpr ⟨some style, ?_, ?_⟩
        · exact result_map_eq_ok.mpr ⟨style, hstyle style rfl, rfl⟩
        · exact result_bind_eq_ok.mpr ⟨_, hidentifier, rfl⟩
    rw [Counter.function, result_readCall_counters, hread]
    rfl

end ComputedCss
