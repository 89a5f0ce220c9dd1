import ComputedCss.Proofs.Value.Calls
import ComputedCss.Proofs.Value.Numbers

/-!
# Components read back

What is written for a component is one piece of a list, and reading it gives the component back.

* `piece_text`: the text of a well-formed component is one piece.
* `readTrimmed_text`: the component is read from it again, if it is `Legible` and its numbers are
  plain and read back.
* `beq_of_unscannable`, `beq_of_startsExponent` and `beq_of_not_legible`: otherwise it is not.
-/

namespace ComputedCss

open Text Reading

variable {ν : Type}

/-- The numbers of an offset. -/
def RectSide.numbers : RectSide ν → List ν
  | .auto => []
  | .length x _ => [x]

/-- The numbers of a component. -/
def Primitive.numbers : Primitive ν → List ν
  | .numeric x _ => [x]
  | .rect r => r.sides.flatMap RectSide.numbers
  | _ => []

/-- What is not a number survives writing and reading: units that do not start like exponents,
strings without null characters, and addresses that are balanced and neither trimmed nor unquoted. -/
def Primitive.Legible : Primitive ν → Prop
  | .numeric _ type => type.Detached
  | .string s => '\x00' ∉ s.toList
  | .uri u => checkNesting u.toList = .ok () ∧ trim u.toList = u.toList ∧
      unquote u.toList = u.toList
  | .counter c => ∀ s ∈ c.separator, '\x00' ∉ s.toList
  | _ => True

/-! ## Rectangles -/

variable [Scalar ν]

/-- A plain number that reads back. -/
structure Stable (x : ν) : Prop where
  plain : Nonempty (PlainNumber (Scalar.text x).toList)
  readsBack : ReadsBack x

theorem Stable.isNumberText {x : ν} (h : Stable x) : IsNumberText (Scalar.text x).toList :=
  h.plain.elim isNumberText_of_plain

namespace RectSide

variable {side : RectSide ν}

omit [Scalar ν] in
theorem isRead_of_wellFormed {x : ν} {type : ValueType}
    (h : (RectSide.length x type).WellFormed) : type.IsRead := by
  cases type with
  | number => trivial
  | percentage => trivial
  | dimension unit => trivial
  | _ => exact h.elim (fun h => absurd h Bool.false_ne_true) (fun h => absurd h Bool.false_ne_true)

omit [Scalar ν] in
theorem detached_of_wellFormed {x : ν} {type : ValueType}
    (h : (RectSide.length x type).WellFormed) : type.Detached := by
  rintro unit rfl
  exact h.elim (fun h => absurd h Bool.false_ne_true) (fun h => absurd h Bool.false_ne_true)

theorem piece_text (h : side.WellFormed)
    (hnumbers : ∀ x ∈ side.numbers, IsNumberText (Scalar.text x).toList) :
    Piece side.text.toList := by
  cases side with
  | auto =>
    have hauto : IsName "auto".toList := ⟨by decide, trimmed_of_all (by decide)⟩
    exact piece_of_isName hauto
  | length x type =>
    exact piece_numericText (hnumbers x List.mem_cons_self) (isRead_of_wellFormed h)

end RectSide

theorem caselessEq_auto_of_plain {text rest : List Char} (plain : PlainNumber text) :
    caselessEq (String.ofList (text ++ rest)) "auto" = false := by
  rw [Bool.eq_false_iff]
  intro hauto
  have hlist := congrArg String.toList (caselessEq_iff.mp hauto)
  rw [toList_toLower, toList_toLower, String.toList_ofList] at hlist
  cases text with
  | nil => exact plain.ne_nil rfl
  | cons c others =>
    have hc : c.toLower = 'a' := (List.cons.inj hlist).1
    rcases plain.head_cases rfl with rfl | hdigit
    · exact absurd hc (by decide)
    · have hlower : c.toLower.isDigit = c.isDigit := toLower_congr Char.isDigit (by decide) c
      rw [hc, hdigit] at hlower
      exact absurd hlower (by decide)

theorem readRectSide_text {side : RectSide ν} (h : side.WellFormed)
    (hnumbers : ∀ x ∈ side.numbers, Stable x) (text : List Char) :
    ∃ side', result (readRectSide text side.text.toList) = .ok side' ∧ (side' == side) = true := by
  cases side with
  | auto =>
    have hauto : caselessEq (String.ofList "auto".toList) "auto" = true := by decide +kernel
    refine ⟨.auto, ?_, rfl⟩
    rw [RectSide.text, readRectSide, if_pos hauto]
    rfl
  | length x type =>
    obtain ⟨⟨plain⟩, hback⟩ := hnumbers x List.mem_cons_self
    obtain ⟨y, hread, hy⟩ := readNumeric_numericText plain hback (RectSide.isRead_of_wellFormed h)
      (RectSide.detached_of_wellFormed h)
    have hauto : ¬ caselessEq (String.ofList (numericText x type).toList) "auto" = true := by
      rw [toList_numericText, caselessEq_auto_of_plain plain]
      exact Bool.false_ne_true
    have hnumber : startsNumber (numericText x type).toList = true := by
      rw [toList_numericText]
      exact plain.startsNumber_append _
    have hlength : (type.isAbsoluteLength || type.isRelative) = true := Bool.or_eq_true_iff.mpr h
    refine ⟨.length y type, ?_, ?_⟩
    · rw [RectSide.text, readRectSide, if_neg hauto, if_pos hnumber, result_bind_eq_ok]
      refine ⟨_, hread, ?_⟩
      dsimp only
      rw [if_pos hlength]
      rfl
    · show (y == x && type == type) = true
      rw [hy, beq_self_eq_true]
      rfl

namespace Rect

variable {rect : Rect ν}

/-- The texts of the offsets. -/
def parts (rect : Rect ν) : List (List Char) :=
  rect.sides.map fun side => side.text.toList

theorem toList_text (rect : Rect ν) :
    rect.text.toList = callText ['r', 'e', 'c', 't'] ([',', ' '].intercalate rect.parts) := by
  simp [text, parts, sides, callText, List.intercalate_cons_cons]

theorem piece_of_mem_parts (h : ∀ side ∈ rect.sides, side.WellFormed)
    (hnumbers : ∀ side ∈ rect.sides, ∀ x ∈ side.numbers, IsNumberText (Scalar.text x).toList) :
    ∀ part ∈ rect.parts, Piece part := by
  intro part hpart
  obtain ⟨side, hside, rfl⟩ := List.mem_map.mp hpart
  exact RectSide.piece_text (h side hside) (hnumbers side hside)

theorem result_readRect {text : List Char} (hparts : ∀ part ∈ rect.parts, Piece part)
    {rect' : Rect ν} :
    result (readRect text ([',', ' '].intercalate rect.parts)) = .ok rect' ↔
      List.Forall₂ (fun part side => result (readRectSide text part) = .ok side) rect.parts
        rect'.sides := by
  have hsplit : piecesTop isBreak ([',', ' '].intercalate rect.parts) = .ok rect.parts :=
    piecesTop_break (by simp [parts, sides]) hparts
  constructor
  · intro h
    unfold readRect at h
    obtain ⟨pieces, hpieces, h⟩ := result_bind_eq_ok.mp h
    obtain rfl : rect.parts = pieces := by
      have heq := hsplit.symm.trans (result_ofText_eq_ok.mp hpieces)
      exact Except.ok.inj heq
    obtain ⟨found, hfound, h⟩ := result_bind_eq_ok.mp h
    rw [result_mapM_eq_ok] at hfound
    split at h
    · obtain rfl := Except.ok.inj h
      exact hfound
    · simp at h
  · intro h
    refine result_bind_eq_ok.mpr ⟨rect.parts, result_ofText_eq_ok.mpr hsplit, ?_⟩
    exact result_bind_eq_ok.mpr ⟨rect'.sides, result_mapM_eq_ok.mpr h, rfl⟩

end Rect

/-! ## One component -/

theorem readTrimmed_of_startsNumber {text : List Char} (h : startsNumber text = true) :
    readTrimmed text = (do
      let (value, type) ← readNumeric text
      pure (.numeric value type) : Reading ν (Primitive ν)) := by
  cases text with
  | nil => exact absurd h (by decide)
  | cons c rest =>
    have hquote : ¬ isQuote c = true := by
      intro hquote
      have hc : c = '\x22' ∨ c = '\x27' := by simpa [isQuote] using hquote
      rcases hc with rfl | rfl <;> exact absurd h (by simp [startsNumber])
    have hhash : ¬ (c == '#') = true := by
      rw [beq_iff_eq]
      rintro rfl
      exact absurd h (by simp [startsNumber])
    rw [readTrimmed, if_neg hquote, if_neg hhash, if_pos h]

theorem readTrimmed_of_isIdent {text : List Char} (h : isIdent text = true) :
    readTrimmed text = (pure (.ident (String.ofList text)) : Reading ν (Primitive ν)) := by
  cases text with
  | nil => exact absurd h (by decide)
  | cons c rest =>
    have hcall : ¬ (c :: rest).contains '(' = true := by
      rw [List.contains_iff_mem]
      intro hmem
      exact absurd (ne_opening_of_isIdent h _ hmem) (by decide)
    rw [readTrimmed_of_isIdentPart (isIdentPart_of_isIdent h c List.mem_cons_self)
      (startsNumber_of_isIdent h), if_neg hcall, if_pos h]

theorem result_readTrimmed_string (s : String) :
    result (readTrimmed (stringText s).toList : Reading ν (Primitive ν)) =
      .ok (.string (replaceNulls s)) := by
  rw [toList_stringText, readTrimmed, if_pos (by decide), result_map_eq_ok]
  exact ⟨_, result_ofText_eq_ok.mpr (readString_escaped s.toList), rfl⟩

theorem result_readTrimmed_color (color : Color) :
    result (readTrimmed color.toHex.toList : Reading ν (Primitive ν)) = .ok (.color color) := by
  have hread := color.ofHex?_toHex
  have hhash : color.toHex.toList = '#' :: color.toHex.toList.tail := by simp [Color.toHex]
  rw [hhash, readTrimmed, if_neg (by decide), if_pos (by decide), ← hhash, readHexColor,
    String.ofList_toList, hread]
  rfl

theorem result_readTrimmed_counter {counter : Counter} (h : counter.WellFormed) :
    result (readTrimmed counter.text.toList : Reading ν (Primitive ν)) =
      .ok (.counter counter.replaceNulls) := by
  have hpieces := Counter.piece_of_mem_parts h
  have hread : result (readCall counter.text.toList counter.function
      ([',', ' '].intercalate counter.parts) : Reading ν (Primitive ν)) =
      .ok (.counter counter.replaceNulls) := result_readCall_parts h
  obtain ⟨c, name, hname, hc, hrest, -⟩ := counter.function_cases
  rw [Counter.toList_text, hname] at hread ⊢
  rw [result_readTrimmed_call hc hrest, trim_intercalate hpieces]
  exact ⟨balanced_intercalate hpieces, hread⟩

theorem result_readTrimmed_rect {rect rect' : Rect ν} (hparts : ∀ part ∈ rect.parts, Piece part) :
    result (readTrimmed rect.text.toList) = .ok (.rect rect') ↔
      List.Forall₂ (fun part side =>
        result (readRectSide rect.text.toList part) = .ok side) rect.parts rect'.sides := by
  rw [← Rect.result_readRect hparts, Rect.toList_text,
    result_readTrimmed_call (by decide) (by decide), trim_intercalate hparts, result_readCall_rect,
    ← result_map, result_map_eq_ok]
  constructor
  · rintro ⟨-, r, hread, hr⟩
    obtain rfl : r = rect' := by simpa using hr
    exact hread
  · intro hread
    exact ⟨balanced_intercalate hparts, rect', hread, rfl⟩

theorem result_readTrimmed_uri {u : String} {p : Primitive ν} :
    result (readTrimmed (Primitive.uri u : Primitive ν).text.toList) = .ok p ↔
      Balanced (trim u.toList) ∧ p = .uri (String.ofList (unquote (trim u.toList))) := by
  have htext : (Primitive.uri u : Primitive ν).text.toList = callText ['u', 'r', 'l'] u.toList := by
    simp [Primitive.text, callText]
  rw [htext, result_readTrimmed_call (by decide) (by decide), result_readCall_url]
  simp [eq_comm]

theorem result_readTrimmed_attr {name : String} (h : IsName name.toList) :
    result (readTrimmed (Primitive.attr name : Primitive ν).text.toList) =
      .ok (.attr name : Primitive ν) := by
  have htext : (Primitive.attr name : Primitive ν).text.toList =
      callText ['a', 't', 't', 'r'] name.toList := by simp [Primitive.text, callText]
  rw [htext, result_readTrimmed_call (by decide) (by decide), trim_eq_self h.trimmed,
    result_readCall_attr h.isIdent, String.ofList_toList]
  exact ⟨(uncut_of_isIdent h.isIdent).balanced, rfl⟩

/-! ## Any component -/

namespace Primitive

variable {p : Primitive ν}

omit [Scalar ν] in
theorem mem_numbers_of_side {rect : Rect ν} {side : RectSide ν} (hside : side ∈ rect.sides) {x : ν}
    (hx : x ∈ side.numbers) : x ∈ (Primitive.rect rect).numbers :=
  List.mem_flatMap.mpr ⟨side, hside, hx⟩

theorem piece_text (h : p.WellFormed)
    (hnumbers : ∀ x ∈ p.numbers, IsNumberText (Scalar.text x).toList)
    (haddress : ∀ u, p = .uri u → Balanced u.toList) : Piece p.text.toList := by
  cases p with
  | numeric x type => exact piece_numericText (hnumbers x List.mem_cons_self) h
  | string s => exact piece_stringText s
  | uri u =>
    have hname : IsName ['u', 'r', 'l'] := ⟨by decide, trimmed_of_all (by decide)⟩
    have htext : (Primitive.uri u : Primitive ν).text.toList = callText ['u', 'r', 'l'] u.toList := by
      simp [text, callText]
    rw [htext]
    exact piece_callText hname (haddress u rfl)
  | ident name => exact piece_of_isName h
  | attr name =>
    have hname : IsName ['a', 't', 't', 'r'] := ⟨by decide, trimmed_of_all (by decide)⟩
    have htext : (Primitive.attr name : Primitive ν).text.toList =
        callText ['a', 't', 't', 'r'] name.toList := by simp [text, callText]
    rw [htext]
    exact piece_callText hname (piece_of_isName h).uncut.balanced
  | counter c =>
    obtain ⟨d, name, hname, hd, hrest, htrimmed⟩ := c.function_cases
    rw [text, Counter.toList_text, hname]
    exact piece_callText ⟨isIdent_cons hd hrest, htrimmed⟩
      (balanced_intercalate (Counter.piece_of_mem_parts h))
  | rect r =>
    have hname : IsName ['r', 'e', 'c', 't'] := ⟨by decide, trimmed_of_all (by decide)⟩
    rw [text, Rect.toList_text]
    exact piece_callText hname (balanced_intercalate (Rect.piece_of_mem_parts h
      fun side hside x hx => hnumbers x (mem_numbers_of_side hside hx)))
  | color c => exact c.piece_toHex

/-- **A component is read from what is written for it.** -/
theorem readTrimmed_text (h : p.WellFormed) (hlegible : p.Legible)
    (hnumbers : ∀ x ∈ p.numbers, Stable x) :
    ∃ q, result (readTrimmed p.text.toList) = .ok q ∧ (q == p) = true := by
  cases p with
  | numeric x type =>
    obtain ⟨⟨plain⟩, hback⟩ := hnumbers x List.mem_cons_self
    obtain ⟨y, hread, hy⟩ := readNumeric_numericText plain hback h hlegible
    refine ⟨.numeric y type, ?_, ?_⟩
    · have hnumber : startsNumber (numericText x type).toList = true := by
        rw [toList_numericText]
        exact plain.startsNumber_append _
      rw [text, readTrimmed_of_startsNumber hnumber, result_bind_eq_ok]
      exact ⟨_, hread, rfl⟩
    · show (y == x && type == type) = true
      rw [hy, beq_self_eq_true]
      rfl
  | string s =>
    refine ⟨_, result_readTrimmed_string s, ?_⟩
    rw [(replaceNulls_eq_self_iff s).mpr hlegible]
    exact beq_self_eq_true s
  | uri u =>
    obtain ⟨hbalanced, htrim, hunquote⟩ := hlegible
    refine ⟨.uri u, result_readTrimmed_uri.mpr ?_, beq_self_eq_true u⟩
    rw [htrim, hunquote, String.ofList_toList]
    exact ⟨checkNesting_eq_ok.mp hbalanced, rfl⟩
  | ident name =>
    refine ⟨.ident name, ?_, beq_self_eq_true name⟩
    rw [text, readTrimmed_of_isIdent h.isIdent, String.ofList_toList]
    rfl
  | attr name => exact ⟨_, result_readTrimmed_attr h, beq_self_eq_true name⟩
  | counter c =>
    refine ⟨_, result_readTrimmed_counter h, ?_⟩
    rw [c.replaceNulls_eq_self_iff.mpr hlegible]
    exact beq_self_eq_true c
  | rect r =>
    have hparts := Rect.piece_of_mem_parts h fun side hside x hx =>
      (hnumbers x (mem_numbers_of_side hside hx)).isNumberText
    have hside : ∀ side ∈ r.sides, ∃ side',
        result (readRectSide r.text.toList side.text.toList) = .ok side' ∧ (side' == side) = true :=
      fun side hmem => readRectSide_text (h side hmem)
        (fun x hx => hnumbers x (mem_numbers_of_side hmem hx)) _
    obtain ⟨top, htop, htop'⟩ := hside r.top (by simp [Rect.sides])
    obtain ⟨right, hright, hright'⟩ := hside r.right (by simp [Rect.sides])
    obtain ⟨bottom, hbottom, hbottom'⟩ := hside r.bottom (by simp [Rect.sides])
    obtain ⟨left, hleft, hleft'⟩ := hside r.left (by simp [Rect.sides])
    refine ⟨.rect ⟨top, right, bottom, left⟩, (result_readTrimmed_rect hparts).mpr ?_, ?_⟩
    · exact .cons htop (.cons hright (.cons hbottom (.cons hleft .nil)))
    · show (top == r.top && right == r.right && bottom == r.bottom && left == r.left) = true
      rw [htop', hright', hbottom', hleft']
      rfl
  | color c => exact ⟨_, result_readTrimmed_color c, beq_self_eq_true c⟩

end Primitive

/-! ## Components that are not read back -/

/-- A number that is written without starting like a number. -/
structure Unscannable (x : ν) : Prop where
  isNumberText : IsNumberText (Scalar.text x).toList
  startsNumber : ∀ rest, startsNumber ((Scalar.text x).toList ++ rest) = false

theorem number?_of_readFunction {text : List Char} {p : Primitive ν}
    (h : result (readFunction text) = .ok p) : p.number? = none := by
  obtain ⟨-, arguments, -, -, h⟩ := result_readFunction_eq_ok.mp h
  unfold readCall at h
  dsimp only at h
  split_ifs at h
  · obtain rfl := Except.ok.inj h
    rfl
  · obtain rfl := Except.ok.inj h
    rfl
  · obtain ⟨counter, -, rfl⟩ := result_map_eq_ok.mp h
    rfl
  · obtain ⟨counter, -, rfl⟩ := result_map_eq_ok.mp h
    rfl
  · obtain ⟨rect, -, rfl⟩ := result_map_eq_ok.mp h
    rfl
  · split at h
    · obtain rfl := Except.ok.inj h
      rfl
    · simp at h

theorem readNumeric_of_readTrimmed {text : List Char} {x : ν} {type : ValueType}
    (h : result (readTrimmed text) = .ok (.numeric x type)) :
    startsNumber text = true ∧ result (readNumeric text) = .ok (x, type) := by
  by_cases hnumber : startsNumber text = true
  · rw [readTrimmed_of_startsNumber hnumber, result_bind_eq_ok] at h
    obtain ⟨⟨y, type'⟩, hread, heq⟩ := h
    obtain ⟨rfl, rfl⟩ : y = x ∧ type' = type := by simpa using heq
    exact ⟨hnumber, hread⟩
  · unfold readTrimmed at h
    split at h
    · simp at h
    · split_ifs at h with hquote hhash hcall hident
      · obtain ⟨s, -, heq⟩ := result_map_eq_ok.mp h
        exact absurd heq (by simp)
      · unfold readHexColor at h
        split at h <;> simp at h
      · exact absurd (number?_of_readFunction h) (by simp [Primitive.number?])
      · simp at h
      · simp at h

theorem beq_side_of_unscannable {side side' : RectSide ν} {x : ν} (hx : x ∈ side.numbers)
    (hunscannable : Unscannable x) {text : List Char}
    (h : result (readRectSide text side.text.toList) = .ok side') : (side' == side) = false := by
  cases side with
  | auto => exact absurd hx (by simp [RectSide.numbers])
  | length y type =>
    obtain rfl : x = y := by simpa [RectSide.numbers] using hx
    have hnumber : ¬ startsNumber (RectSide.length x type).text.toList = true := by
      rw [RectSide.text, toList_numericText, hunscannable.startsNumber]
      exact Bool.false_ne_true
    unfold readRectSide at h
    split_ifs at h
    · obtain rfl := Except.ok.inj h
      rfl
    · simp at h

namespace Primitive

variable {p q : Primitive ν}

theorem numeric_of_beq {x : ν} {type : ValueType} (h : (q == .numeric x type) = true) :
    ∃ y, q = .numeric y type := by
  cases q with
  | numeric y type' =>
    obtain ⟨-, htype⟩ := Bool.and_eq_true_iff.mp (show (y == x && type' == type) = true from h)
    rw [eq_of_beq htype]
    exact ⟨y, rfl⟩
  | _ => exact absurd h Bool.false_ne_true

theorem rect_of_beq {r : Rect ν} (h : (q == .rect r) = true) :
    ∃ r', q = .rect r' ∧ (r' == r) = true := by
  cases q with
  | rect r' => exact ⟨r', rfl, h⟩
  | _ => exact absurd h Bool.false_ne_true

theorem beq_of_unscannable (h : p.WellFormed)
    (hnumbers : ∀ x ∈ p.numbers, IsNumberText (Scalar.text x).toList) {x : ν} (hx : x ∈ p.numbers)
    (hunscannable : Unscannable x) (hread : result (readTrimmed p.text.toList) = .ok q) :
    (q == p) = false := by
  rw [Bool.eq_false_iff]
  intro hbeq
  cases p with
  | numeric y type =>
    obtain rfl : x = y := by simpa [numbers] using hx
    obtain ⟨z, rfl⟩ := numeric_of_beq hbeq
    obtain ⟨hnumber, -⟩ := readNumeric_of_readTrimmed hread
    rw [text, toList_numericText, hunscannable.startsNumber] at hnumber
    exact absurd hnumber Bool.false_ne_true
  | rect r =>
    obtain ⟨r', rfl, hrect⟩ := rect_of_beq hbeq
    have hparts := Rect.piece_of_mem_parts h fun side hside y hy =>
      hnumbers y (mem_numbers_of_side hside hy)
    have hsides := (result_readTrimmed_rect hparts).mp hread
    simp only [Rect.parts, Rect.sides, List.map_cons, List.map_nil, List.forall₂_cons] at hsides
    obtain ⟨htop, hright, hbottom, hleft, -⟩ := hsides
    have hall : (((r'.top == r.top) = true ∧ (r'.right == r.right) = true) ∧
        (r'.bottom == r.bottom) = true) ∧ (r'.left == r.left) = true := by
      simpa only [BEq.beq, Bool.and_eq_true] using hrect
    obtain ⟨⟨⟨htop', hright'⟩, hbottom'⟩, hleft'⟩ := hall
    obtain ⟨side, hside, hmem⟩ := List.mem_flatMap.mp hx
    simp only [Rect.sides, List.mem_cons, List.not_mem_nil, or_false] at hside
    rcases hside with rfl | rfl | rfl | rfl
    · rw [beq_side_of_unscannable hmem hunscannable htop] at htop'
      exact Bool.false_ne_true htop'
    · rw [beq_side_of_unscannable hmem hunscannable hright] at hright'
      exact Bool.false_ne_true hright'
    · rw [beq_side_of_unscannable hmem hunscannable hbottom] at hbottom'
      exact Bool.false_ne_true hbottom'
    · rw [beq_side_of_unscannable hmem hunscannable hleft] at hleft'
      exact Bool.false_ne_true hleft'
  | _ => exact absurd hx (by simp [numbers])

theorem beq_of_startsExponent {x : ν} {unit : String} (h : IsKeptUnit unit)
    (plain : PlainNumber (Scalar.text x).toList)
    (hexponent : Numeral.startsExponent unit.toList = true)
    (hread : result (readTrimmed (numericText x (.unknownDimension unit)).toList) = .ok q) :
    (q == .numeric x (.unknownDimension unit)) = false := by
  rw [Bool.eq_false_iff]
  intro hbeq
  obtain ⟨y, rfl⟩ := numeric_of_beq hbeq
  obtain ⟨-, hnumeric⟩ := readNumeric_of_readTrimmed hread
  obtain ⟨numeral, suffix, noted, hscan, hsuffix, hvalue, -⟩ := result_readNumeric_eq_ok.mp hnumeric
  have hread : ValueType.IsRead (.unknownDimension unit) := h
  rw [toList_numericText, Numeral.scan_plain plain (endsDigits_suffix hread)] at hscan
  obtain ⟨-, rfl⟩ : _ ∧ _ = suffix := by simpa using hscan
  have hlt := Numeral.length_splitExponent_lt hexponent
  rcases readSuffix_cases hsuffix with ⟨-, hnoted⟩ | ⟨-, hnoted⟩ | ⟨-, known, hnoted⟩ |
    ⟨-, -, hnoted⟩
  · rw [hvalue] at hnoted
    exact absurd hnoted (by simp)
  · rw [hvalue] at hnoted
    exact absurd hnoted (by simp)
  · rw [hvalue] at hnoted
    exact absurd hnoted (by simp)
  · rw [hvalue, ValueType.unknownDimension.injEq] at hnoted
    have hlength := congrArg (fun s => s.toList.length) hnoted
    simp only [toList_toLower, List.length_map, String.toList_ofList] at hlength
    simp only [ValueType.suffix] at hlength
    omega

theorem length_unquote_le (text : List Char) : (unquote text).length ≤ text.length := by
  unfold unquote
  split
  · split_ifs
    · simp only [List.length_dropLast, List.length_cons]
      omega
    · exact Nat.le_refl _
  · exact Nat.le_refl _

theorem beq_of_address {u : String}
    (hlegible : ¬ (Primitive.uri u : Primitive ν).Legible)
    (hread : result (readTrimmed (Primitive.uri u : Primitive ν).text.toList) = .ok q) :
    (q == .uri u) = false := by
  obtain ⟨hbalanced, rfl⟩ := result_readTrimmed_uri.mp hread
  rw [Bool.eq_false_iff]
  intro hbeq
  have hu : String.ofList (unquote (trim u.toList)) = u := eq_of_beq hbeq
  have hlist : unquote (trim u.toList) = u.toList := by
    rw [← String.ofList_inj, hu, String.ofList_toList]
  have hunquote := length_unquote_le (trim u.toList)
  rw [hlist] at hunquote
  have htrim : trim u.toList = u.toList := trim_eq_self_of_length hunquote
  rw [htrim] at hbalanced hlist
  exact hlegible ⟨checkNesting_eq_ok.mpr hbalanced, htrim, hlist⟩

theorem beq_of_not_legible (h : p.WellFormed) (hlegible : ¬ p.Legible)
    (hplain : ∀ x ∈ p.numbers, Nonempty (PlainNumber (Scalar.text x).toList))
    (hread : result (readTrimmed p.text.toList) = .ok q) : (q == p) = false := by
  cases p with
  | numeric x type =>
    obtain ⟨plain⟩ := hplain x List.mem_cons_self
    obtain ⟨unit, hunit⟩ := not_forall.mp hlegible
    obtain ⟨rfl, hexponent⟩ := Classical.not_imp.mp hunit
    exact beq_of_startsExponent h plain (by simpa using hexponent) hread
  | string s =>
    obtain rfl := Except.ok.inj ((result_readTrimmed_string s).symm.trans hread)
    rw [Bool.eq_false_iff]
    intro hbeq
    exact hlegible ((replaceNulls_eq_self_iff s).mp (eq_of_beq hbeq))
  | uri u => exact beq_of_address hlegible hread
  | counter c =>
    obtain rfl := Except.ok.inj ((result_readTrimmed_counter h).symm.trans hread)
    rw [Bool.eq_false_iff]
    intro hbeq
    exact hlegible (c.replaceNulls_eq_self_iff.mp (eq_of_beq hbeq))
  | _ => exact absurd trivial hlegible

end Primitive

end ComputedCss
