import ComputedCss.Proofs.Text.TopLevel
import ComputedCss.Proofs.Value.Keyword

/-!
# Segments and items

A list with commas can be read as segments of its text and as items of its value. The segments are
cut at every comma, the items at the commas of the top level. In a text that opens no string and no
parenthesis these are the same.

* `freshSegments_eq`: a value that has just been read cuts its own text.
* `splitTop_of_parse`: without quotes and parentheses the top level of a text that is read is the
  whole text.
* `segments_agree`: the segments go with the items.
-/

namespace ComputedCss

open Text Reading

variable {ν Context : Type} [Scalar ν]

/-- The segments of a value that has just been read. -/
def freshSegments (text : String) (v : Value ν) (context : Option Context) (config : Config ν)
    (sheet : Sheet ν) : List String :=
  let fresh := freshValue text v context config sheet
  (fresh.1.segmentsOf fresh.2).1

theorem freshSegments_eq (text : String) (v : Value ν) (context : Option Context)
    (config : Config ν) (sheet : Sheet ν) :
    freshSegments text v context config sheet =
      ComputedValue.cut config.trimsSegments (trimmed text) := by
  let fresh := freshValue text v context config sheet
  have hunasked : fresh.2.segments? fresh.1.segments = none := by
    simp [fresh, freshValue, ComputedValue.ofDeclaration, Sheet.segments?, Sheet.addSegments]
  have htext : fresh.1.text fresh.2 = trimmed text :=
    congrArg Declaration.text (Sheet.get_add_self sheet ⟨trimmed text, v⟩)
  show (fresh.1.segmentsOf fresh.2).1 = _
  rw [ComputedValue.segmentsOf, hunasked]
  dsimp only
  rw [htext]
  rfl

/-! ## The two views -/

variable {text : String} {v : Value ν}

theorem splitTop_of_parse (h : Value.parse? text = .ok v)
    (hopens : ∀ c ∈ text.toList, isQuote c = false ∧ c ≠ '(') {isSeparator : Char → Bool} :
    splitTop isSeparator (trim text.toList) =
      .ok ((pieces isSeparator (trim text.toList)).map trim) := by
  have hclosed : Closed noSeparator (trim text.toList) := closed_iff_pass.mpr (balanced_of_parse h)
  obtain ⟨front, back, htext, -, -⟩ := exists_blanks_around_trim text.toList
  have hmem : ∀ c ∈ trim text.toList, c ∈ text.toList := fun c hc => by
    rw [htext]
    exact List.mem_append_right front (List.mem_append_left back hc)
  exact splitTop_of_isPlain (hclosed.isPlain fun c hc => hopens c (hmem c hc))

theorem items_of_parse (h : Value.parse? text = .ok v) {parts : List (List Char)}
    (hparts : splitTop (· == ',') (trim text.toList) = .ok parts) :
    (∀ items, v = .list items .comma →
      List.Forall₂ (fun part item => result (readListItem part) = .ok item) parts items) ∧
    ((∀ items, v ≠ .list items .comma) → parts.length = 1) := by
  have hread : result (readTrimmedValue (trim text.toList)) = .ok v := h
  have hne : 0 < parts.length := List.length_pos_iff.mpr (splitTop_ne_nil hparts)
  unfold readTrimmedValue at hread
  split_ifs at hread
  · simp at hread
  · obtain ⟨found, hfound, hread⟩ := result_bind_eq_ok.mp hread
    rw [result_ofText_eq_ok, hparts] at hfound
    obtain rfl := Except.ok.inj hfound
    split_ifs at hread with hcomma
    · obtain ⟨items, hitems, hread⟩ := result_bind_eq_ok.mp hread
      obtain rfl := Except.ok.inj hread
      refine ⟨fun others heq => ?_, fun hnot => absurd rfl (hnot items)⟩
      obtain rfl : items = others := (Value.list.inj heq).1
      exact result_mapM_eq_ok.mp hitems
    · -- One part is left, and what it says has no commas at the top level.
      refine ⟨?_, fun _ => by omega⟩
      rintro others rfl
      obtain ⟨words, -, hread⟩ := result_bind_eq_ok.mp hread
      split_ifs at hread
      · obtain ⟨items, -, hread⟩ := result_bind_eq_ok.mp hread
        exact absurd hread (by simp)
      · obtain ⟨p, -, hread⟩ := result_map_eq_ok.mp hread
        exact absurd hread (by simp)

/-- **The segments go with the items.** In a text without quotes and opening parentheses that is
read as a list with commas, every segment is an item of the list as it is written, and none is left
over. A text that is read as anything else is one segment. Segments that keep their blanks are
joined to the text, and the others are the same segments without the blanks at their ends. -/
theorem segments_agree (h : Value.parse? text = .ok v)
    (hopens : ∀ c ∈ text.toList, isQuote c = false ∧ c ≠ '(') (context : Option Context)
    (config : Config ν) (sheet : Sheet ν) :
    let fresh := freshValue text v context config sheet
    let segments := freshSegments text v context config sheet
    (∀ items, v = .list items .comma → fresh.1.listItems fresh.2 = .ok items ∧
      List.Forall₂ (fun segment item =>
        result (readListItem (trim segment.toList)) = .ok item) segments items) ∧
    ((∀ items, v ≠ .list items .comma) → segments.length = 1) ∧
    (config.trimsSegments = false → ",".intercalate segments = fresh.1.text fresh.2) ∧
    (config.trimsSegments = true → segments =
      (freshSegments text v context { config with trimsSegments := false } sheet).map trimmed) := by
  intro fresh segments
  have hsegments : segments = ComputedValue.cut config.trimsSegments (trimmed text) :=
    freshSegments_eq text v context config sheet
  have hget : fresh.2.get fresh.1.declaration = ⟨trimmed text, v⟩ :=
    Sheet.get_add_self sheet ⟨trimmed text, v⟩
  have htrim : segments.map (fun segment => trim segment.toList) =
      (pieces (· == ',') (trim text.toList)).map trim := by
    rw [hsegments, ComputedValue.cut, trimmed, String.toList_ofList, List.map_map]
    refine List.map_congr_left fun piece _ => ?_
    cases config.trimsSegments with
    | false => simp
    | true => simp [trim_eq_self (trimmed_trim piece)]
  obtain ⟨hitems, hone⟩ := items_of_parse h (splitTop_of_parse h hopens)
  refine ⟨fun items hv => ⟨?_, ?_⟩, fun hv => ?_, fun hkeeps => ?_, fun htrims => ?_⟩
  · have hlist : fresh.1.isList = true := by
      show (fresh.2.get fresh.1.declaration).value.kind == .list
      rw [hget, hv]
      rfl
    rw [ComputedValue.listItems, if_pos hlist, hget, hv]
    rfl
  · have hread := hitems items hv
    rw [← htrim, List.forall₂_map_left_iff] at hread
    exact hread
  · have hlength := hone hv
    rw [← htrim, List.length_map] at hlength
    exact hlength
  · have htext : fresh.1.text fresh.2 = trimmed text := congrArg Declaration.text hget
    rw [htext, hsegments, hkeeps, ← String.toList_inj, String.toList_intercalate]
    exact (congrArg _ (by simp [ComputedValue.cut])).trans (intercalate_pieces ',' _)
  · rw [hsegments, htrims, freshSegments_eq, ComputedValue.cut, ComputedValue.cut, List.map_map]
    simp [trimmed]

/-- A list of names of fonts, with blanks around the comma and at the ends. -/
theorem segments_agree_fonts :
    let text := " Times New Roman ,serif "
    ∃ items : List (Primitive Float),
      let v := Value.list items .comma
      let segments := freshSegments text v (none : Option Unit) .standard .empty
      Value.parse? text = .ok v ∧ (∀ c ∈ text.toList, isQuote c = false ∧ c ≠ '(') ∧
        segments = ["Times New Roman", "serif"] ∧
        List.Forall₂ (fun segment item => result (readListItem (trim segment.toList)) = .ok item)
          segments items := by
  intro text
  have hok : (Value.parse? text : Except (ValueError Float) (Value Float)).isOk = true := by
    decide +kernel
  obtain ⟨v, hv⟩ : ∃ v : Value Float, Value.parse? text = .ok v := by
    cases hparse : (Value.parse? text : Except (ValueError Float) (Value Float)) with
    | ok v => exact ⟨v, rfl⟩
    | error e =>
      rw [hparse] at hok
      exact absurd hok Bool.false_ne_true
  have hopens : ∀ c ∈ text.toList, isQuote c = false ∧ c ≠ '(' := by simp [text, isQuote]
  have hsegments : freshSegments text v (none : Option Unit) .standard .empty =
      ["Times New Roman", "serif"] :=
    (freshSegments_eq text v none .standard .empty).trans (by decide +kernel)
  have hagree := segments_agree hv hopens (none : Option Unit) .standard .empty
  -- A text that is read as anything else has one segment, and this one has two.
  obtain ⟨items, rfl⟩ : ∃ items, v = .list items .comma := by
    by_contra hother
    have hone := hagree.2.1 (not_exists.mp hother)
    rw [hsegments] at hone
    exact absurd hone (by decide)
  exact ⟨items, hv, hopens, hsegments, (hagree.1 _ rfl).2⟩

end ComputedCss
