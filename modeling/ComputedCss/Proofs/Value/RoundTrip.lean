import ComputedCss.Proofs.Number.Written

/-!
# Values read back

What is written for a value that was read is read as an equal value, as long as every component is
`Reprintable`: its numbers are finite, and no text in it is changed by being written. A component
that is not reprintable is read as something else.

* `parse_text_comma`, `parse_text_space`: lists are split into the texts of their items.
* `parse_text`: every value that a text says.
-/

namespace ComputedCss

open Text Reading

variable {ν : Type} [Scalar ν]

/-! ## Items -/

theorem readPrimitive_of_piece {text : List Char} (h : Piece text) :
    readPrimitive text = (readTrimmed text : Reading ν (Primitive ν)) := by
  rw [readPrimitive, trim_eq_self h.trimmed]

theorem wordsTop_piece {text : List Char} (h : Piece text) : wordsTop text = .ok [text] :=
  piecesTop_of_pass h.ne_nil h.trimmed h.uncut.space

theorem readListItem_of_piece {text : List Char} (h : Piece text) {p : Primitive ν} :
    result (readListItem text) = .ok p ↔ result (readTrimmed text) = .ok p := by
  rw [result_readListItem_eq_ok]
  simp only [wordsTop_piece h, Except.ok.injEq, exists_eq_left', readPrimitive_of_piece h]
  simp [h.ne_nil]

theorem toList_names (names : List (List Char)) :
    (" ".intercalate (names.map String.ofList)).toList = [' '].intercalate names := by
  rw [String.toList_intercalate, List.map_map]
  congr 1
  exact (List.map_congr_left fun name _ => String.toList_ofList).trans (List.map_id names)

theorem readListItem_names {names : List (List Char)} (hlength : 2 ≤ names.length)
    (hnames : ∀ name ∈ names, IsName name) :
    result (readListItem ([' '].intercalate names) : Reading ν (Primitive ν)) =
      .ok (.ident (" ".intercalate (names.map String.ofList))) := by
  have hpieces : ∀ name ∈ names, Piece name := fun name hname => piece_of_isName (hnames name hname)
  have hnames_ne : names ≠ [] := List.length_pos_iff.mp (by omega)
  have hne : [' '].intercalate names ≠ [] :=
    intercalate_ne_nil hnames_ne fun name hname => (hpieces name hname).ne_nil
  have hall : ∀ name ∈ names, isIdent name = true := fun name hname => (hnames name hname).isIdent
  refine result_readListItem_eq_ok.mpr ⟨hne, names, wordsTop_space hnames_ne hpieces, .inr ?_⟩
  exact ⟨by omega, hall, rfl⟩

/-! ## Lists -/

omit [Scalar ν] in
theorem exists_forall₂ {α β : Type} {R : α → β → Prop} {as : List α}
    (h : ∀ a ∈ as, ∃ b, R a b) : ∃ bs, List.Forall₂ R as bs := by
  induction as with
  | nil => exact ⟨[], .nil⟩
  | cons a as ih =>
    obtain ⟨b, hb⟩ := h a List.mem_cons_self
    obtain ⟨bs, hbs⟩ := ih fun a' ha' => h a' (List.mem_cons_of_mem a ha')
    exact ⟨b :: bs, .cons hb hbs⟩

omit [Scalar ν] in
theorem beq_of_forall₂ {α : Type} [BEq α] {as bs : List α}
    (h : List.Forall₂ (fun a b => (b == a) = true) as bs) : (bs == as) = true := by
  induction h with
  | nil => rfl
  | cons hab _ ih => simp [hab, ih]

/-- The texts of the items of a list. -/
def itemTexts (items : List (Primitive ν)) : List (List Char) :=
  items.map fun p => p.text.toList

theorem toList_text_list (items : List (Primitive ν)) (separator : ListSeparator) :
    (Value.list items separator).text.toList = separator.text.toList.intercalate (itemTexts items) := by
  rw [Value.text, String.toList_intercalate, List.map_map]
  rfl

theorem length_itemTexts (items : List (Primitive ν)) :
    (itemTexts items).length = items.length :=
  List.length_map _

theorem forall_mem_itemTexts {items : List (Primitive ν)} {P : List Char → Prop}
    (h : ∀ p ∈ items, P p.text.toList) : ∀ part ∈ itemTexts items, P part := by
  intro part hpart
  obtain ⟨p, hp, rfl⟩ := List.mem_map.mp hpart
  exact h p hp

theorem exists_of_read_items {items : List (Primitive ν)}
    {read : List Char → Reading ν (Primitive ν)}
    (hread : ∀ p ∈ items, ∃ q, result (read p.text.toList) = .ok q ∧ (q == p) = true) :
    ∃ found, result ((itemTexts items).mapM read) = .ok found ∧ (found == items) = true := by
  obtain ⟨found, hfound⟩ := exists_forall₂ hread
  refine ⟨found, ?_, beq_of_forall₂ (hfound.imp fun p q h => h.2)⟩
  rw [result_mapM_eq_ok, itemTexts, List.forall₂_map_left_iff]
  exact hfound.imp fun p q h => h.1

theorem parse_text_comma {items : List (Primitive ν)} (hlength : 2 ≤ items.length)
    (htexts : ∀ p ∈ items, p.text.toList ≠ [] ∧ Trimmed p.text.toList ∧
      pass (· == ',') .top p.text.toList = some .top)
    (hread : ∀ p ∈ items, ∃ q, result (readListItem p.text.toList) = .ok q ∧ (q == p) = true) :
    ∃ w, Value.parse? (Value.list items .comma).text = .ok w ∧
      (w == .list items .comma) = true := by
  have hparts := forall_mem_itemTexts (P := fun text => text ≠ [] ∧ Trimmed text ∧
    pass (· == ',') .top text = some .top) htexts
  have hcount := length_itemTexts items
  have hne : itemTexts items ≠ [] := List.length_pos_iff.mp (by omega)
  have htrim : trim ([',', ' '].intercalate (itemTexts items)) =
      [',', ' '].intercalate (itemTexts items) :=
    trim_eq_self (trimmed_intercalate fun part hpart => ⟨(hparts part hpart).1, (hparts part hpart).2.1⟩)
  have hempty : ¬ ([',', ' '].intercalate (itemTexts items)).isEmpty = true := by
    rw [List.isEmpty_iff]
    exact intercalate_ne_nil hne fun part hpart => (hparts part hpart).1
  have hsplit := splitTop_intercalate hne fun part hpart => (hparts part hpart).2
  obtain ⟨found, hfound, hbeq⟩ := exists_of_read_items hread
  refine ⟨.list found .comma, ?_, ?_⟩
  · show result (readTrimmedValue (trim _)) = _
    rw [toList_text_list]
    show result (readTrimmedValue (trim ([',', ' '].intercalate (itemTexts items)))) = _
    rw [htrim, readTrimmedValue, if_neg hempty, result_bind_eq_ok]
    refine ⟨_, result_ofText_eq_ok.mpr hsplit, ?_⟩
    rw [if_pos (by omega), result_bind_eq_ok]
    exact ⟨found, hfound, rfl⟩
  · show (found == items && ListSeparator.comma == ListSeparator.comma) = true
    rw [hbeq]
    rfl

theorem parse_text_space {items : List (Primitive ν)} (hlength : 2 ≤ items.length)
    (hpieces : ∀ p ∈ items, Piece p.text.toList)
    (hread : ∀ p ∈ items, ∃ q, result (readTrimmed p.text.toList) = .ok q ∧ (q == p) = true) :
    ∃ w, Value.parse? (Value.list items .space).text = .ok w ∧
      (w == .list items .space) = true := by
  have hparts := forall_mem_itemTexts hpieces
  have hcount := length_itemTexts items
  have hne : itemTexts items ≠ [] := List.length_pos_iff.mp (by omega)
  have hempty : ¬ ([' '].intercalate (itemTexts items)).isEmpty = true := by
    rw [List.isEmpty_iff]
    exact intercalate_ne_nil hne fun part hpart => (hparts part hpart).ne_nil
  -- without a comma at the top level the whole text is one piece
  have hcomma : splitTop (· == ',') ([' '].intercalate (itemTexts items)) =
      .ok [[' '].intercalate (itemTexts items)] := by
    rw [splitTop_of_pass (pass_intercalate rfl fun part hpart => (hparts part hpart).uncut.comma),
      trim_intercalate hparts]
  have hwords : ∀ p ∈ items, ∃ q, result (readPrimitive p.text.toList) = .ok q ∧ (q == p) = true := by
    intro p hp
    rw [readPrimitive_of_piece (hpieces p hp)]
    exact hread p hp
  obtain ⟨found, hfound, hbeq⟩ := exists_of_read_items hwords
  refine ⟨.list found .space, ?_, ?_⟩
  · show result (readTrimmedValue (trim _)) = _
    rw [toList_text_list]
    show result (readTrimmedValue (trim ([' '].intercalate (itemTexts items)))) = _
    rw [trim_intercalate hparts, readTrimmedValue, if_neg hempty, result_bind_eq_ok]
    refine ⟨_, result_ofText_eq_ok.mpr hcomma, ?_⟩
    rw [if_neg (by simp), result_bind_eq_ok]
    refine ⟨_, result_ofText_eq_ok.mpr (wordsTop_space hne hparts), ?_⟩
    rw [if_pos (by omega), result_bind_eq_ok]
    exact ⟨found, hfound, rfl⟩
  · show (found == items && ListSeparator.space == ListSeparator.space) = true
    rw [hbeq]
    rfl

theorem parse_piece {text : String} (h : Piece text.toList) :
    Value.parse? text =
      (result (readTrimmed text.toList : Reading ν (Primitive ν))).map Value.single := by
  have hempty : ¬ text.toList.isEmpty = true := by
    rw [List.isEmpty_iff]
    exact h.ne_nil
  have hcomma : splitTop (· == ',') text.toList = .ok [text.toList] := by
    rw [splitTop_of_pass h.uncut.comma, trim_eq_self h.trimmed]
  show result (readTrimmedValue (trim text.toList)) = _
  rw [trim_eq_self h.trimmed, readTrimmedValue, if_neg hempty,
    result_bind_of_ok (result_ofText_eq_ok.mpr hcomma), if_neg (by simp),
    result_bind_of_ok (result_ofText_eq_ok.mpr (wordsTop_piece h)), if_neg (by simp), result_map,
    readPrimitive_of_piece h]

theorem parse_text_single {p : Primitive ν} (h : Piece p.text.toList) {q : Primitive ν}
    (hread : result (readTrimmed p.text.toList) = .ok q) :
    Value.parse? (Value.single p).text = .ok (.single q) := by
  rw [Value.text, parse_piece h, hread]
  rfl

/-! ## Values of the program -/

/-- A component that survives writing and reading. -/
structure Primitive.Reprintable (p : Primitive Float) : Prop where
  isFinite : ∀ x ∈ p.numbers, (Binary64.ofFloat x).isFinite = true
  legible : p.Legible

namespace Primitive

variable {p : Primitive Float}

theorem Reprintable.stable (h : p.Reprintable)
    (hback : ∀ x ∈ p.numbers, (Binary64.ofFloat x).isFinite = true → ReadsBack x) :
    ∀ x ∈ p.numbers, Stable x :=
  fun x hx => ⟨plainNumber_text (h.isFinite x hx), hback x hx (h.isFinite x hx)⟩

theorem Reprintable.piece_text (h : p.Reprintable) (hp : p.WellFormed) : Piece p.text.toList := by
  refine Primitive.piece_text hp (fun x _ => isNumberText_text x) fun u hu => ?_
  have hlegible := h.legible
  rw [hu] at hlegible
  exact checkNesting_eq_ok.mp hlegible.1

theorem beq_of_not_reprintable (hp : p.WellFormed) (h : ¬ p.Reprintable) {q : Primitive Float}
    (hread : result (readTrimmed p.text.toList) = .ok q) : (q == p) = false := by
  have hnumbers : ∀ x ∈ p.numbers, IsNumberText (Scalar.text x).toList :=
    fun x _ => isNumberText_text x
  by_cases hfinite : ∀ x ∈ p.numbers, (Binary64.ofFloat x).isFinite = true
  · have hlegible : ¬ p.Legible := fun hlegible => h ⟨hfinite, hlegible⟩
    exact beq_of_not_legible hp hlegible (fun x hx => plainNumber_text (hfinite x hx)) hread
  · obtain ⟨x, hx⟩ := not_forall.mp hfinite
    obtain ⟨hmem, hinfinite⟩ := Classical.not_imp.mp hx
    exact beq_of_unscannable hp hnumbers hmem
      (unscannable_of_not_isFinite (by simpa using hinfinite)) hread

theorem trimmed_text (hp : p.WellFormed) : Trimmed p.text.toList := by
  cases p with
  | uri u =>
    have hname : IsName ['u', 'r', 'l'] := ⟨by decide, trimmed_of_all (by decide)⟩
    have htext : (Primitive.uri u : Primitive Float).text.toList =
        callText ['u', 'r', 'l'] u.toList := by simp [text, callText]
    rw [htext]
    exact trimmed_callText hname
  | _ => exact (Primitive.piece_text hp (fun x _ => isNumberText_text x)
      fun u hu => absurd hu (by simp)).trimmed

end Primitive

theorem readListItem_text {p : Primitive Float} (hp : p.WellFormedItem) (h : p.Reprintable)
    (hback : ∀ x ∈ p.numbers, (Binary64.ofFloat x).isFinite = true → ReadsBack x) :
    (p.text.toList ≠ [] ∧ Trimmed p.text.toList ∧
      pass (· == ',') .top p.text.toList = some .top) ∧
    ∃ q, result (readListItem p.text.toList) = .ok q ∧ (q == p) = true := by
  rcases hp with hp | ⟨names, hlength, hnames, rfl⟩
  · have hpiece := h.piece_text hp
    obtain ⟨q, hread, hq⟩ := Primitive.readTrimmed_text hp h.legible (h.stable hback)
    exact ⟨⟨hpiece.ne_nil, hpiece.trimmed, hpiece.uncut.comma⟩, q,
      (readListItem_of_piece hpiece).mpr hread, hq⟩
  · have hpieces : ∀ name ∈ names, Piece name := fun name hname =>
      piece_of_isName (hnames name hname)
    have hne : names ≠ [] := List.length_pos_iff.mp (by omega)
    rw [Primitive.text, toList_names]
    refine ⟨⟨intercalate_ne_nil hne fun name hname => (hpieces name hname).ne_nil,
      trimmed_intercalate fun name hname => ⟨(hpieces name hname).ne_nil,
        (hpieces name hname).trimmed⟩,
      pass_intercalate rfl fun name hname => (hpieces name hname).uncut.comma⟩, _,
      readListItem_names hlength hnames, ?_⟩
    exact beq_self_eq_true (" ".intercalate (names.map String.ofList))

/-- **What is written for a value is read as that value.** This holds of every value that a text
says, as long as its components are reprintable and the text of each of its finite numbers reads
back. A single component that is not reprintable is never read back. -/
theorem parse_text {text : String} {v : Value Float} (h : Value.parse? text = .ok v)
    (hback : ∀ p ∈ v.items, ∀ x ∈ p.numbers, (Binary64.ofFloat x).isFinite = true →
      ReadsBack x) :
    ((∀ p ∈ v.items, p.Reprintable) → ∃ w, Value.parse? v.text = .ok w ∧ (w == v) = true) ∧
    (∀ p, v = .single p → ¬ p.Reprintable → ∀ w, Value.parse? v.text = .ok w →
      (w == v) = false) := by
  have hwellFormed := wellFormed_of_parse h
  constructor
  · intro hreprintable
    cases v with
    | single p =>
      have hp := hreprintable p List.mem_cons_self
      obtain ⟨q, hread, hq⟩ := Primitive.readTrimmed_text hwellFormed hp.legible
        (hp.stable (hback p List.mem_cons_self))
      exact ⟨.single q, parse_text_single (hp.piece_text hwellFormed) hread, hq⟩
    | list items separator =>
      cases separator with
      | comma =>
        obtain ⟨hlength, hitems⟩ := hwellFormed
        have hread := fun p hp => readListItem_text (hitems p hp) (hreprintable p hp) (hback p hp)
        exact parse_text_comma hlength (fun p hp => (hread p hp).1) fun p hp => (hread p hp).2
      | space =>
        obtain ⟨hlength, hitems⟩ := hwellFormed
        exact parse_text_space hlength (fun p hp => (hreprintable p hp).piece_text (hitems p hp))
          fun p hp => Primitive.readTrimmed_text (hitems p hp) (hreprintable p hp).legible
            ((hreprintable p hp).stable (hback p hp))
  · rintro p rfl hp w hw
    rcases result_readTrimmedValue_eq_ok hw with ⟨pieces, items, -, -, -, rfl⟩ |
      ⟨words, items, -, -, -, rfl⟩ | ⟨q, hread, rfl⟩
    · rfl
    · rfl
    · have htrimmed := Primitive.trimmed_text hwellFormed
      have htext : trim (trim (Value.single p).text.toList) = p.text.toList := by
        rw [Value.text, trim_eq_self htrimmed, trim_eq_self htrimmed]
      rw [readPrimitive, htext] at hread
      exact Primitive.beq_of_not_reprintable hwellFormed hp hread

/-- An offset and an address, which are written as they were read. -/
theorem parse_text_offset_address :
    Value.parse? "-1.5em url(a)" =
      .ok (.list [.numeric (-1.5 : Float) (.dimension .em), .uri "a"] .space) ∧
    ∃ w, Value.parse? (Value.list [.numeric (-1.5 : Float) (.dimension .em), .uri "a"] .space).text =
      .ok w ∧ (w == .list [.numeric (-1.5 : Float) (.dimension .em), .uri "a"] .space) = true := by
  have hparse : Value.parse? "-1.5em url(a)" =
      .ok (.list [.numeric (-1.5 : Float) (.dimension .em), .uri "a"] .space) := by
    with_unfolding_all rfl
  have hback : ReadsBack (-1.5 : Float) := ⟨⟨true, 15, -1⟩, by decide +kernel, by decide +kernel⟩
  have hall := parse_text hparse (by
    intro p hp x hx _
    simp only [Value.items, List.mem_cons, List.not_mem_nil, or_false] at hp
    rcases hp with rfl | rfl
    · obtain rfl : x = -1.5 := by simpa [Primitive.numbers] using hx
      exact hback
    · exact absurd hx (by simp [Primitive.numbers]))
  refine ⟨hparse, hall.1 fun p hp => ?_⟩
  simp only [Value.items, List.mem_cons, List.not_mem_nil, or_false] at hp
  rcases hp with rfl | rfl
  · refine ⟨fun x hx => ?_, fun unit hunit => absurd hunit (by simp)⟩
    obtain rfl : x = -1.5 := by simpa [Primitive.numbers] using hx
    decide +kernel
  · exact ⟨fun x hx => absurd hx (by simp [Primitive.numbers]), by decide +kernel, by decide +kernel,
      by decide +kernel⟩

end ComputedCss
