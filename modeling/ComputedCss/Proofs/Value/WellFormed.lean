import ComputedCss.Proofs.Number.Token
import ComputedCss.Proofs.Reading
import ComputedCss.Proofs.Value.Identifiers

/-!
# What a text can say

Every value that is read is well formed: its types carry numbers, its names are identifiers without
blanks at their ends, and its lists have two items or more.

* `wellFormed_of_readTrimmed`: one component.
* `wellFormed_of_parse`: a whole value.
-/

namespace ComputedCss

open Text Reading

variable {ν : Type}

/-! ## Well-formed values -/

/-- An identifier without a blank at its ends. -/
structure IsName (text : List Char) : Prop where
  isIdent : isIdent text = true
  trimmed : Trimmed text

/-- A unit that is kept: an identifier in lower case, which names no known unit. -/
structure IsKeptUnit (unit : String) : Prop where
  isIdent : isIdent unit.toList = true
  lower : unit.toLower = unit
  unknown : Dimension.ofName? unit = none
  last : ∀ c ∈ unit.toList.getLast?, isBlank c = false

/-- A type that a number can be read in. -/
def ValueType.IsRead : ValueType → Prop
  | .number | .percentage | .dimension _ => True
  | .unknownDimension unit => IsKeptUnit unit
  | _ => False

/-- The names of a counter are identifiers. -/
structure Counter.WellFormed (counter : Counter) : Prop where
  identifier : IsName counter.identifier.toList
  listStyle : ∀ style ∈ counter.listStyle, IsName style.toList

/-- An offset is a length, absolute or relative. -/
def RectSide.WellFormed : RectSide ν → Prop
  | .auto => True
  | .length _ type => type.isAbsoluteLength = true ∨ type.isRelative = true

/-- The four offsets in the order in which they are written. -/
def Rect.sides (rect : Rect ν) : List (RectSide ν) :=
  [rect.top, rect.right, rect.bottom, rect.left]

/-- A component that stands alone. -/
def Primitive.WellFormed : Primitive ν → Prop
  | .numeric _ type => type.IsRead
  | .string _ | .uri _ | .color _ => True
  | .ident name | .attr name => IsName name.toList
  | .counter c => c.WellFormed
  | .rect r => ∀ side ∈ r.sides, side.WellFormed

/-- An item between commas: a component, or several names joined by spaces. -/
def Primitive.WellFormedItem (p : Primitive ν) : Prop :=
  p.WellFormed ∨ ∃ names : List (List Char), 2 ≤ names.length ∧ (∀ name ∈ names, IsName name) ∧
    p = .ident (" ".intercalate (names.map String.ofList))

/-- A value that a text can say. -/
def Value.WellFormed : Value ν → Prop
  | .single p => p.WellFormed
  | .list items .comma => 2 ≤ items.length ∧ ∀ p ∈ items, p.WellFormedItem
  | .list items .space => 2 ≤ items.length ∧ ∀ p ∈ items, p.WellFormed

/-! ## Counters -/

theorem result_readCounterName_eq_ok {text argument : List Char} {name : String} :
    result (readCounterName text argument : Reading ν String) = .ok name ↔
      isIdent argument = true ∧ name = String.ofList argument := by
  unfold readCounterName
  split_ifs with hident
  · simp [hident, eq_comm]
  · simp [hident]

theorem isName_of_readCounterName {text argument : List Char} {name : String}
    (htrimmed : Trimmed argument)
    (h : result (readCounterName text argument : Reading ν String) = .ok name) :
    IsName name.toList := by
  obtain ⟨hident, rfl⟩ := result_readCounterName_eq_ok.mp h
  rw [String.toList_ofList]
  exact ⟨hident, htrimmed⟩

theorem wellFormed_of_readCounter {text arguments : List Char} {counter : Counter}
    (h : result (readCounter text arguments : Reading ν Counter) = .ok counter) :
    counter.WellFormed := by
  unfold readCounter at h
  obtain ⟨pieces, hpieces, h⟩ := result_bind_eq_ok.mp h
  rw [result_ofText_eq_ok] at hpieces
  have htrimmed : ∀ piece ∈ pieces, Trimmed piece := fun piece hpiece =>
    trimmed_of_mem_splitTop hpieces hpiece
  split at h
  · rename_i identifier
    obtain ⟨name, hname, h⟩ := result_bind_eq_ok.mp h
    obtain rfl := Except.ok.inj h
    exact ⟨isName_of_readCounterName (htrimmed _ (by simp)) hname, by simp⟩
  · rename_i identifier style
    obtain ⟨name, hname, h⟩ := result_bind_eq_ok.mp h
    obtain ⟨styleName, hstyle, h⟩ := result_bind_eq_ok.mp h
    obtain rfl := Except.ok.inj h
    refine ⟨isName_of_readCounterName (htrimmed _ (by simp)) hname, ?_⟩
    intro name' hname'
    obtain rfl : styleName = name' := by simpa using hname'
    exact isName_of_readCounterName (htrimmed _ (by simp)) hstyle
  · simp at h

theorem wellFormed_of_readCounters {text arguments : List Char} {counter : Counter}
    (h : result (readCounters text arguments : Reading ν Counter) = .ok counter) :
    counter.WellFormed := by
  unfold readCounters at h
  obtain ⟨pieces, hpieces, h⟩ := result_bind_eq_ok.mp h
  rw [result_ofText_eq_ok] at hpieces
  have htrimmed : ∀ piece ∈ pieces, Trimmed piece := fun piece hpiece =>
    trimmed_of_mem_splitTop hpieces hpiece
  split at h
  · rename_i identifier separator others
    obtain ⟨separatorText, -, h⟩ := result_bind_eq_ok.mp h
    dsimp only at h
    split at h
    · rw [pure_bind] at h
      obtain ⟨name, hname, h⟩ := result_bind_eq_ok.mp h
      obtain rfl := Except.ok.inj h
      exact ⟨isName_of_readCounterName (htrimmed _ (by simp)) hname, by simp⟩
    · obtain ⟨style, hstyle, h⟩ := result_bind_eq_ok.mp h
      obtain ⟨styleName, hread, rfl⟩ := result_map_eq_ok.mp hstyle
      obtain ⟨name, hname, h⟩ := result_bind_eq_ok.mp h
      obtain rfl := Except.ok.inj h
      refine ⟨isName_of_readCounterName (htrimmed _ (by simp)) hname, ?_⟩
      intro name' hname'
      obtain rfl : styleName = name' := by simpa using hname'
      exact isName_of_readCounterName (htrimmed _ (by simp)) hread
    · obtain ⟨style, hstyle, -⟩ := result_bind_eq_ok.mp h
      simp at hstyle
  · simp at h

variable [Scalar ν]

/-! ## Numbers -/

theorem result_readNumeric_eq_ok {text : List Char} {x : ν} {type : ValueType} :
    result (readNumeric text) = .ok (x, type) ↔ ∃ numeral suffix noted,
      Numeral.scan text = some (numeral, suffix) ∧ readSuffix suffix = some noted ∧
      noted.value = type ∧ Scalar.ofNumeral numeral = x := by
  unfold readNumeric
  cases hscan : Numeral.scan text with
  | none => simp
  | some scanned =>
    obtain ⟨numeral, suffix⟩ := scanned
    dsimp only
    cases hsuffix : readSuffix suffix with
    | none => simp [hsuffix]
    | some noted => simp [result_map_eq_ok, hsuffix, and_comm]

theorem readSuffix_cases {suffix : List Char} {noted : Noted ValueType}
    (h : readSuffix suffix = some noted) :
    (suffix = [] ∧ noted.value = .number) ∨ (suffix = ['%'] ∧ noted.value = .percentage) ∨
    (isIdent suffix = true ∧ ∃ unit, noted.value = .dimension unit) ∨
    (isIdent suffix = true ∧ Dimension.ofName? (String.ofList suffix) = none ∧
      noted.value = .unknownDimension (String.ofList suffix).toLower) := by
  unfold readSuffix at h
  split at h
  · obtain rfl := Option.some.inj h
    exact .inl ⟨rfl, rfl⟩
  · obtain rfl := Option.some.inj h
    exact .inr (.inl ⟨rfl, rfl⟩)
  · split_ifs at h with hident
    dsimp only at h
    cases hname : Dimension.ofName? (String.ofList suffix) with
    | some unit =>
      rw [hname] at h
      obtain rfl := Option.some.inj h
      exact .inr (.inr (.inl ⟨hident, unit, rfl⟩))
    | none =>
      rw [hname] at h
      obtain rfl := Option.some.inj h
      exact .inr (.inr (.inr ⟨hident, rfl, rfl⟩))

theorem isKeptUnit_toLower {suffix : List Char} (hident : isIdent suffix = true)
    (hunknown : Dimension.ofName? (String.ofList suffix) = none)
    (hlast : ∀ c ∈ suffix.getLast?, isBlank c = false) :
    IsKeptUnit (String.ofList suffix).toLower := by
  have hlist : (String.ofList suffix).toLower.toList = suffix.map Char.toLower := by
    rw [toList_toLower, String.toList_ofList]
  refine ⟨?_, string_toLower_toLower _, ?_, ?_⟩
  · rw [hlist]
    exact isIdent_toLower hident
  · rw [ofName?_toLower, hunknown]
  · rw [hlist, List.getLast?_map]
    intro c hc
    obtain ⟨d, hd, rfl⟩ := Option.map_eq_some_iff.mp hc
    rw [isBlank_toLower]
    exact hlast d hd

theorem getLast?_of_suffix {front text : List Char} (h : front <:+ text) :
    ∀ c ∈ front.getLast?, c ∈ text.getLast? := by
  obtain ⟨start, rfl⟩ := h
  intro c hc
  rw [List.getLast?_append, Option.mem_def.mp hc]
  rfl

theorem isRead_of_readNumeric {text : List Char} {x : ν} {type : ValueType} (htext : Trimmed text)
    (h : result (readNumeric text) = .ok (x, type)) : type.IsRead := by
  obtain ⟨numeral, suffix, noted, hscan, hsuffix, rfl, -⟩ := result_readNumeric_eq_ok.mp h
  rcases readSuffix_cases hsuffix with ⟨-, hvalue⟩ | ⟨-, hvalue⟩ | ⟨-, unit, hvalue⟩ |
    ⟨hident, hunknown, hvalue⟩
  · rw [hvalue]
    trivial
  · rw [hvalue]
    trivial
  · rw [hvalue]
    trivial
  · rw [hvalue]
    apply isKeptUnit_toLower hident hunknown
    intro c hc
    exact htext.last c (getLast?_of_suffix (Numeral.suffix_of_scan hscan) c hc)

/-! ## Rectangles -/

theorem wellFormed_of_readRectSide {text side : List Char} {offset : RectSide ν}
    (h : result (readRectSide text side) = .ok offset) : offset.WellFormed := by
  unfold readRectSide at h
  split_ifs at h
  · obtain rfl := Except.ok.inj h
    trivial
  · obtain ⟨⟨x, type⟩, -, h⟩ := result_bind_eq_ok.mp h
    dsimp only at h
    split_ifs at h with hlength hzero
    · obtain rfl := Except.ok.inj h
      exact Bool.or_eq_true_iff.mp hlength
    · obtain rfl := Except.ok.inj h
      exact .inl rfl
    · simp at h
  · simp at h

theorem wellFormed_of_readRect {text arguments : List Char} {rect : Rect ν}
    (h : result (readRect text arguments) = .ok rect) :
    ∀ side ∈ rect.sides, side.WellFormed := by
  unfold readRect at h
  obtain ⟨pieces, -, h⟩ := result_bind_eq_ok.mp h
  obtain ⟨sides, hsides, h⟩ := result_bind_eq_ok.mp h
  rw [result_mapM_eq_ok] at hsides
  have hall : ∀ side ∈ sides, side.WellFormed := by
    intro side hside
    obtain ⟨piece, -, hread⟩ := exists_of_forall₂ hsides hside
    exact wellFormed_of_readRectSide hread
  split at h
  · obtain rfl := Except.ok.inj h
    exact hall
  · simp at h

/-! ## Components -/

theorem result_readFunction_eq_ok {text : List Char} {p : Primitive ν} :
    result (readFunction text) = .ok p ↔
      isIdent (text.takeWhile (· != '(')) = true ∧ ∃ arguments,
        callArguments? ((text.dropWhile (· != '(')).drop 1) = some arguments ∧
        Balanced arguments ∧
        result (readCall text (text.takeWhile (· != '(')) arguments) = .ok p := by
  unfold readFunction
  dsimp only
  split_ifs with hname
  · cases harguments : callArguments? ((text.dropWhile (· != '(')).drop 1) with
    | none => simp
    | some arguments =>
      dsimp only
      simp only [result_bind_eq_ok, result_ofText_eq_ok, hname, Option.some.injEq, true_and,
        exists_eq_left', ← checkNesting_eq_ok]
      exact ⟨fun ⟨(), hnesting, hread⟩ => ⟨hnesting, hread⟩, fun ⟨hnesting, hread⟩ =>
        ⟨(), hnesting, hread⟩⟩
  · simp [hname]

theorem trimmed_of_callArguments? {text arguments : List Char}
    (h : callArguments? text = some arguments) : Trimmed arguments := by
  unfold callArguments? at h
  split_ifs at h
  obtain rfl := Option.some.inj h
  exact trimmed_trim text.dropLast

theorem wellFormed_of_readFunction {text : List Char} {p : Primitive ν}
    (h : result (readFunction text) = .ok p) : p.WellFormed := by
  obtain ⟨-, arguments, harguments, -, h⟩ := result_readFunction_eq_ok.mp h
  unfold readCall at h
  dsimp only at h
  split_ifs at h with hurl hattr hcounter hcounters hrect
  · obtain rfl := Except.ok.inj h
    trivial
  · obtain rfl := Except.ok.inj h
    refine ⟨?_, ?_⟩
    · rw [String.toList_ofList]
      exact (Bool.and_eq_true_iff.mp hattr).2
    · rw [String.toList_ofList]
      exact trimmed_of_callArguments? harguments
  · obtain ⟨counter, hread, rfl⟩ := result_map_eq_ok.mp h
    exact wellFormed_of_readCounter hread
  · obtain ⟨counter, hread, rfl⟩ := result_map_eq_ok.mp h
    exact wellFormed_of_readCounters hread
  · obtain ⟨rect, hread, rfl⟩ := result_map_eq_ok.mp h
    exact wellFormed_of_readRect hread
  · split at h
    · obtain rfl := Except.ok.inj h
      trivial
    · simp at h

theorem wellFormed_of_readTrimmed {text : List Char} {p : Primitive ν} (htext : Trimmed text)
    (h : result (readTrimmed text) = .ok p) : p.WellFormed := by
  unfold readTrimmed at h
  split at h
  · simp at h
  · split_ifs at h with hquote hhash hnumber hcall hident
    · obtain ⟨s, -, rfl⟩ := result_map_eq_ok.mp h
      trivial
    · unfold readHexColor at h
      split at h
      · obtain rfl := Except.ok.inj h
        trivial
      · simp at h
    · obtain ⟨⟨x, type⟩, hread, h⟩ := result_bind_eq_ok.mp h
      obtain rfl := Except.ok.inj h
      exact isRead_of_readNumeric htext hread
    · exact wellFormed_of_readFunction h
    · obtain rfl := Except.ok.inj h
      refine ⟨?_, ?_⟩ <;> rw [String.toList_ofList]
      · exact hident
      · exact htext
    · simp at h

theorem wellFormed_of_readPrimitive {text : List Char} {p : Primitive ν}
    (h : result (readPrimitive text) = .ok p) : p.WellFormed :=
  wellFormed_of_readTrimmed (trimmed_trim text) h

/-! ## Values -/

theorem result_readListItem_eq_ok {item : List Char} {p : Primitive ν} :
    result (readListItem item) = .ok p ↔
      item ≠ [] ∧ ∃ words, wordsTop item = .ok words ∧
        (words.length = 1 ∧ result (readPrimitive item) = .ok p ∨
          words.length ≠ 1 ∧ (∀ word ∈ words, isIdent word = true) ∧
            p = .ident (" ".intercalate (words.map String.ofList))) := by
  unfold readListItem
  split_ifs with hempty
  · simp [List.isEmpty_iff.mp hempty]
  rw [result_bind_eq_ok]
  simp only [result_ofText_eq_ok]
  constructor
  · rintro ⟨words, hwords, h⟩
    refine ⟨by simpa using hempty, words, hwords, ?_⟩
    split_ifs at h with hone hall
    · exact .inl ⟨by simpa using hone, h⟩
    · exact .inr ⟨by simpa using hone, List.all_eq_true.mp hall, (Except.ok.inj h).symm⟩
    · simp at h
  · rintro ⟨-, words, hwords, ⟨hone, h⟩ | ⟨hone, hall, rfl⟩⟩
    · refine ⟨words, hwords, ?_⟩
      rw [if_pos (by simpa using hone)]
      exact h
    · refine ⟨words, hwords, ?_⟩
      rw [if_neg (by simpa using hone), if_pos (List.all_eq_true.mpr hall)]
      rfl

theorem wordsTop_ne_nil_of_trimmed {item : List Char} {words : List (List Char)}
    (hitem : Trimmed item) (hne : item ≠ []) (h : wordsTop item = .ok words) : words ≠ [] := by
  cases item with
  | nil => exact absurd rfl hne
  | cons c rest => exact wordsTop_ne_nil (hitem.head c rfl) h

theorem wellFormedItem_of_readListItem {item : List Char} {p : Primitive ν} (htext : Trimmed item)
    (h : result (readListItem item) = .ok p) : p.WellFormedItem := by
  obtain ⟨hne, words, hwords, ⟨-, h⟩ | ⟨hone, hall, rfl⟩⟩ := result_readListItem_eq_ok.mp h
  · exact .inl (wellFormed_of_readPrimitive h)
  · refine .inr ⟨words, ?_, ?_, rfl⟩
    · have hpos := List.length_pos_iff.mpr (wordsTop_ne_nil_of_trimmed htext hne hwords)
      omega
    · intro name hname
      exact ⟨hall name hname, (trimmed_of_mem_piecesTop hwords hname).1⟩

theorem result_readTrimmedValue_eq_ok {text : List Char} {v : Value ν}
    (h : result (readTrimmedValue text) = .ok v) :
    (∃ pieces items, splitTop (· == ',') text = .ok pieces ∧ 1 < pieces.length ∧
      List.Forall₂ (fun piece p => result (readListItem piece) = .ok p) pieces items ∧
      v = .list items .comma) ∨
    (∃ words items, wordsTop text = .ok words ∧ 1 < words.length ∧
      List.Forall₂ (fun word p => result (readPrimitive word) = .ok p) words items ∧
      v = .list items .space) ∨
    (∃ p, result (readPrimitive text) = .ok p ∧ v = .single p) := by
  unfold readTrimmedValue at h
  split_ifs at h
  · simp at h
  · obtain ⟨pieces, hpieces, h⟩ := result_bind_eq_ok.mp h
    rw [result_ofText_eq_ok] at hpieces
    split_ifs at h with hcomma
    · obtain ⟨items, hitems, h⟩ := result_bind_eq_ok.mp h
      obtain rfl := Except.ok.inj h
      exact .inl ⟨pieces, items, hpieces, hcomma, result_mapM_eq_ok.mp hitems, rfl⟩
    · obtain ⟨words, hwords, h⟩ := result_bind_eq_ok.mp h
      rw [result_ofText_eq_ok] at hwords
      split_ifs at h with hspace
      · obtain ⟨items, hitems, h⟩ := result_bind_eq_ok.mp h
        obtain rfl := Except.ok.inj h
        exact .inr (.inl ⟨words, items, hwords, hspace, result_mapM_eq_ok.mp hitems, rfl⟩)
      · obtain ⟨p, hread, rfl⟩ := result_map_eq_ok.mp h
        exact .inr (.inr ⟨p, hread, rfl⟩)

/-- **What a text says is well formed.** -/
theorem wellFormed_of_parse {text : String} {v : Value ν} (h : Value.parse? text = .ok v) :
    v.WellFormed := by
  rcases result_readTrimmedValue_eq_ok h with ⟨pieces, items, hpieces, hlength, hitems, rfl⟩ |
    ⟨words, items, hwords, hlength, hitems, rfl⟩ | ⟨p, hread, rfl⟩
  · refine ⟨hitems.length_eq ▸ hlength, fun p hp => ?_⟩
    obtain ⟨piece, hpiece, hread⟩ := exists_of_forall₂ hitems hp
    exact wellFormedItem_of_readListItem (trimmed_of_mem_splitTop hpieces hpiece) hread
  · refine ⟨hitems.length_eq ▸ hlength, fun p hp => ?_⟩
    obtain ⟨word, -, hread⟩ := exists_of_forall₂ hitems hp
    exact wellFormed_of_readPrimitive hread
  · exact wellFormed_of_readPrimitive hread

end ComputedCss
