import ComputedCss.Proofs.Value.RoundTrip

/-!
# The numbers in a value that is read

Every number in a value that a text says is the number of a numeral. So the value equals itself when
numerals stand for numbers that do.

* `isNumeral_of_readTrimmed`: one component; `isNumeral_of_parse`: a whole value.
* `Value.beq_self`: a value whose numbers equal themselves.
-/

namespace ComputedCss

open Text Reading

variable {ν : Type} [Scalar ν]

/-- The number is that of a numeral. -/
def IsNumeral (x : ν) : Prop :=
  ∃ numeral, Scalar.ofNumeral numeral = x

/-! ## Reading -/

theorem isNumeral_of_readNumeric {text : List Char} {x : ν} {type : ValueType}
    (h : result (readNumeric text) = .ok (x, type)) : IsNumeral x := by
  obtain ⟨numeral, suffix, noted, -, -, -, hx⟩ := result_readNumeric_eq_ok.mp h
  exact ⟨numeral, hx⟩

theorem isNumeral_of_readRectSide {text side : List Char} {offset : RectSide ν}
    (h : result (readRectSide text side) = .ok offset) : ∀ x ∈ offset.numbers, IsNumeral x := by
  unfold readRectSide at h
  split_ifs at h
  · obtain rfl := Except.ok.inj h
    intro x hx
    exact absurd hx List.not_mem_nil
  · obtain ⟨⟨value, type⟩, hread, h⟩ := result_bind_eq_ok.mp h
    have hvalue : IsNumeral value := isNumeral_of_readNumeric hread
    dsimp only at h
    split_ifs at h
    · obtain rfl := Except.ok.inj h
      intro x hx
      exact List.mem_singleton.mp hx ▸ hvalue
    · obtain rfl := Except.ok.inj h
      intro x hx
      exact List.mem_singleton.mp hx ▸ hvalue
    · simp at h
  · simp at h

theorem isNumeral_of_readRect {text arguments : List Char} {rect : Rect ν}
    (h : result (readRect text arguments) = .ok rect) :
    ∀ x ∈ (Primitive.rect rect).numbers, IsNumeral x := by
  unfold readRect at h
  obtain ⟨pieces, -, h⟩ := result_bind_eq_ok.mp h
  obtain ⟨sides, hsides, h⟩ := result_bind_eq_ok.mp h
  rw [result_mapM_eq_ok] at hsides
  split at h
  · obtain rfl := Except.ok.inj h
    intro x hx
    obtain ⟨side, hside, hmem⟩ := List.mem_flatMap.mp hx
    obtain ⟨piece, -, hread⟩ := exists_of_forall₂ hsides hside
    exact isNumeral_of_readRectSide hread x hmem
  · simp at h

theorem isNumeral_of_readFunction {text : List Char} {p : Primitive ν}
    (h : result (readFunction text) = .ok p) : ∀ x ∈ p.numbers, IsNumeral x := by
  have hnone : ∀ q : Primitive ν, q.numbers = [] → ∀ x ∈ q.numbers, IsNumeral x := by
    intro q hq x hx
    rw [hq] at hx
    exact absurd hx List.not_mem_nil
  obtain ⟨-, arguments, -, -, h⟩ := result_readFunction_eq_ok.mp h
  unfold readCall at h
  dsimp only at h
  split_ifs at h
  · obtain rfl := Except.ok.inj h
    exact hnone _ rfl
  · obtain rfl := Except.ok.inj h
    exact hnone _ rfl
  · obtain ⟨counter, -, rfl⟩ := result_map_eq_ok.mp h
    exact hnone _ rfl
  · obtain ⟨counter, -, rfl⟩ := result_map_eq_ok.mp h
    exact hnone _ rfl
  · obtain ⟨rect, hread, rfl⟩ := result_map_eq_ok.mp h
    exact isNumeral_of_readRect hread
  · split at h
    · obtain rfl := Except.ok.inj h
      exact hnone _ rfl
    · simp at h

theorem isNumeral_of_readTrimmed {text : List Char} {p : Primitive ν}
    (h : result (readTrimmed text) = .ok p) : ∀ x ∈ p.numbers, IsNumeral x := by
  intro x hx
  cases p with
  | numeric y type =>
    obtain rfl := List.mem_singleton.mp hx
    exact isNumeral_of_readNumeric (readNumeric_of_readTrimmed h).2
  | rect r =>
    unfold readTrimmed at h
    split at h
    · simp at h
    · split_ifs at h
      · obtain ⟨s, -, heq⟩ := result_map_eq_ok.mp h
        exact absurd heq (by simp)
      · unfold readHexColor at h
        split at h <;> simp at h
      · obtain ⟨number, -, heq⟩ := result_bind_eq_ok.mp h
        exact absurd heq (by simp)
      · exact isNumeral_of_readFunction h x hx
      · simp at h
      · simp at h
  | _ => exact absurd hx List.not_mem_nil

theorem isNumeral_of_readListItem {item : List Char} {p : Primitive ν}
    (h : result (readListItem item) = .ok p) : ∀ x ∈ p.numbers, IsNumeral x := by
  obtain ⟨-, words, -, ⟨-, h⟩ | ⟨-, -, rfl⟩⟩ := result_readListItem_eq_ok.mp h
  · exact isNumeral_of_readTrimmed h
  · exact fun x hx => absurd hx List.not_mem_nil

/-- **Every number in a value that a text says is that of a numeral.** -/
theorem isNumeral_of_parse {text : String} {v : Value ν} (h : Value.parse? text = .ok v) :
    ∀ p ∈ v.items, ∀ x ∈ p.numbers, IsNumeral x := by
  intro p hp
  rcases result_readTrimmedValue_eq_ok h with ⟨pieces, items, -, -, hitems, rfl⟩ |
    ⟨words, items, -, -, hitems, rfl⟩ | ⟨q, hread, rfl⟩
  · obtain ⟨piece, -, hread⟩ := exists_of_forall₂ hitems hp
    exact isNumeral_of_readListItem hread
  · obtain ⟨word, -, hread⟩ := exists_of_forall₂ hitems hp
    exact isNumeral_of_readTrimmed hread
  · obtain rfl := List.mem_singleton.mp hp
    exact isNumeral_of_readTrimmed hread

/-! ## Equality -/

theorem RectSide.beq_self {side : RectSide ν} (h : ∀ x ∈ side.numbers, (x == x) = true) :
    (side == side) = true := by
  cases side with
  | auto => rfl
  | length x type =>
    show (x == x && type == type) = true
    rw [h x List.mem_cons_self, beq_self_eq_true]
    rfl

theorem Primitive.beq_self {p : Primitive ν} (h : ∀ x ∈ p.numbers, (x == x) = true) :
    (p == p) = true := by
  cases p with
  | numeric x type =>
    show (x == x && type == type) = true
    rw [h x List.mem_cons_self, beq_self_eq_true]
    rfl
  | rect r =>
    have hside : ∀ side ∈ r.sides, (side == side) = true := fun side hside =>
      RectSide.beq_self fun x hx => h x (List.mem_flatMap.mpr ⟨side, hside, hx⟩)
    show (r.top == r.top && r.right == r.right && r.bottom == r.bottom && r.left == r.left) = true
    rw [hside r.top (by simp [Rect.sides]), hside r.right (by simp [Rect.sides]),
      hside r.bottom (by simp [Rect.sides]), hside r.left (by simp [Rect.sides])]
    rfl
  | string s => exact beq_self_eq_true s
  | uri s => exact beq_self_eq_true s
  | ident s => exact beq_self_eq_true s
  | attr s => exact beq_self_eq_true s
  | counter c => exact beq_self_eq_true c
  | color c => exact beq_self_eq_true c

theorem Value.beq_self {v : Value ν} (h : ∀ p ∈ v.items, ∀ x ∈ p.numbers, (x == x) = true) :
    (v == v) = true := by
  cases v with
  | single p => exact Primitive.beq_self (h p List.mem_cons_self)
  | list items separator =>
    have hitems : (items == items) = true :=
      beq_of_forall₂ (List.forall₂_same.mpr fun p hp => Primitive.beq_self (h p hp))
    show (items == items && separator == separator) = true
    rw [hitems, beq_self_eq_true]
    rfl

theorem beq_self_of_parse (hnumeral : ∀ n, ((Scalar.ofNumeral n : ν) == Scalar.ofNumeral n) = true)
    {text : String} {v : Value ν} (h : Value.parse? text = .ok v) : (v == v) = true := by
  apply Value.beq_self
  intro p hp x hx
  obtain ⟨numeral, rfl⟩ := isNumeral_of_parse h p hp x hx
  exact hnumeral numeral

end ComputedCss
