import ComputedCss.Proofs.Number.Comparable
import ComputedCss.Proofs.Value.Numerals

/-!
# What is known of every value that is read

A text is read as a well-formed value. So every number in it is a number, has a unit that ends
without a blank, and every name begins and ends without one.

* `RectSide.types`, `Primitive.types`: the types of the numbers of a component.
* `Primitive.names`: its names.
* `classified_of_parse`: what holds of the numbers, types and names that a text says.
-/

namespace ComputedCss

open Text Reading

variable {ν : Type}

/-- The types of the numbers of an offset. -/
def RectSide.types : RectSide ν → List ValueType
  | .auto => []
  | .length _ type => [type]

namespace Primitive

/-- The types of the numbers of a component. -/
def types : Primitive ν → List ValueType
  | .numeric _ type => [type]
  | .rect r => r.sides.flatMap RectSide.types
  | _ => []

/-- The identifiers of a component, and what is joined from identifiers. -/
def names : Primitive ν → List String
  | .ident name | .attr name => [name]
  | .counter c => c.identifier :: c.listStyle.toList
  | _ => []

end Primitive

/-! ## Units -/

theorem toLower_ne_of_isUpper {c : Char} (h : c.isUpper = true) : c.toLower ≠ c := by
  obtain ⟨hlow, hhigh⟩ : 65 ≤ c.toNat ∧ c.toNat ≤ 90 := of_decide_eq_true h
  have hc : c = Char.ofNat (65 + (c.toNat - 65)) := by
    rw [Nat.add_sub_cancel' hlow, Char.ofNat_toNat]
  have hall : ∀ n < 26, (Char.ofNat (65 + n)).toLower ≠ Char.ofNat (65 + n) := by decide
  rw [hc]
  exact hall (c.toNat - 65) (by omega)

theorem IsKeptUnit.no_upper {unit : String} (h : IsKeptUnit unit) :
    unit ≠ "" ∧ ∀ c ∈ unit.toList, c.isUpper = false := by
  refine ⟨?_, fun c hc => ?_⟩
  · rintro rfl
    exact ne_nil_of_isIdent h.isIdent rfl
  · rw [← h.lower, toList_toLower] at hc
    obtain ⟨d, -, rfl⟩ := List.mem_map.mp hc
    rw [Bool.eq_false_iff]
    intro hupper
    exact toLower_ne_of_isUpper hupper (toLower_toLower d)

theorem ValueType.last_suffix {type : ValueType} (h : type.IsRead) :
    ∀ c ∈ type.suffix.toList.getLast?, isBlank c = false := by
  have hall : ∀ type : ValueType, (type.suffix.toList.getLast?.all fun c => !isBlank c) = true →
      ∀ c ∈ type.suffix.toList.getLast?, isBlank c = false := by
    intro type htype c hc
    rw [Option.mem_def.mp hc] at htype
    simpa using htype
  cases type with
  | unknownDimension unit => exact h.last
  | dimension unit =>
    apply hall
    cases unit <;> decide
  | percentage =>
    apply hall
    decide
  | _ => simp [suffix]

/-! ## Components -/

section

variable {p : Primitive ν}

theorem Primitive.WellFormed.types (h : p.WellFormed) : ∀ type ∈ p.types, type.IsRead := by
  intro type htype
  cases p with
  | numeric x type' =>
    obtain rfl := List.mem_singleton.mp htype
    exact h
  | rect r =>
    obtain ⟨side, hside, hmem⟩ := List.mem_flatMap.mp htype
    cases side with
    | auto => exact absurd hmem List.not_mem_nil
    | length x type' =>
      obtain rfl := List.mem_singleton.mp hmem
      exact RectSide.isRead_of_wellFormed (h _ hside)
  | _ => exact absurd htype List.not_mem_nil

theorem Primitive.WellFormed.names (h : p.WellFormed) : ∀ name ∈ p.names, IsName name.toList := by
  intro name hname
  cases p with
  | ident name' | attr name' =>
    obtain rfl := List.mem_singleton.mp hname
    exact h
  | counter c =>
    rcases List.mem_cons.mp hname with rfl | hname
    · exact h.identifier
    · exact h.listStyle name (Option.mem_toList.mp hname)
  | _ => exact absurd hname List.not_mem_nil

theorem Value.WellFormed.items {v : Value ν} (h : v.WellFormed) : ∀ p ∈ v.items, p.WellFormedItem := by
  intro p hp
  cases v with
  | single q =>
    obtain rfl := List.mem_singleton.mp hp
    exact .inl h
  | list items separator =>
    cases separator with
    | comma => exact h.2 p hp
    | space => exact .inl (h.2 p hp)

theorem Primitive.WellFormedItem.types (h : p.WellFormedItem) : ∀ type ∈ p.types, type.IsRead := by
  rcases h with h | ⟨names, -, -, rfl⟩
  · exact h.types
  · exact fun type htype => absurd htype List.not_mem_nil

theorem Primitive.WellFormedItem.trimmed (h : p.WellFormedItem) :
    ∀ name ∈ p.names, Trimmed name.toList := by
  rcases h with h | ⟨names, -, hnames, rfl⟩
  · exact fun name hname => (h.names name hname).trimmed
  · intro name hname
    obtain rfl := List.mem_singleton.mp hname
    rw [toList_names]
    exact trimmed_intercalate fun name hname =>
      ⟨ne_nil_of_isIdent (hnames name hname).isIdent, (hnames name hname).trimmed⟩

end

/-! ## Values -/

/-- **Whatever text is read, what it says is well formed.** The numbers of a component are numbers,
rectangles included. Each has a type that a number can be read in; a unit that is kept has some text
and no capital letters, and no unit ends with a blank. No name begins or ends with one. The offsets
of a rectangle are absolute lengths, multiples of a font size and percentages. -/
theorem classified_of_parse {text : String} {v : Value Float} (h : Value.parse? text = .ok v) :
    v.WellFormed ∧ ∀ p ∈ v.items,
      (∀ x ∈ p.numbers, x.isNaN = false) ∧
      (∀ type ∈ p.types, type.IsRead ∧ ∀ c ∈ type.suffix.toList.getLast?, isBlank c = false) ∧
      (∀ unit, .unknownDimension unit ∈ p.types →
        unit ≠ "" ∧ ∀ c ∈ unit.toList, c.isUpper = false) ∧
      (∀ name ∈ p.names, Trimmed name.toList) ∧
      ∀ rect, p = .rect rect → ∀ side ∈ rect.sides, side = .auto ∨ ∃ x type,
        side = .length x type ∧ (type.isAbsoluteLength = true ∨
          type = .percentage ∨ type = .dimension .em ∨ type = .dimension .ex) := by
  have hwellFormed : v.WellFormed := wellFormed_of_parse h
  refine ⟨hwellFormed, fun p hp => ?_⟩
  have hitem : p.WellFormedItem := hwellFormed.items p hp
  refine ⟨fun x hx => ?_, fun type htype => ?_, fun unit hunit => ?_, hitem.trimmed, ?_⟩
  · obtain ⟨numeral, rfl⟩ := isNumeral_of_parse h p hp x hx
    exact (Binary64.isPacked_ofNumeral numeral).isNaN_eq_false
  · have hread : type.IsRead := hitem.types type htype
    exact ⟨hread, ValueType.last_suffix hread⟩
  · have hkept : IsKeptUnit unit := hitem.types _ hunit
    exact hkept.no_upper
  · rintro rect rfl side hside
    rcases hitem with hrect | ⟨names, -, -, hident⟩
    · cases side with
      | auto => exact .inl rfl
      | length x type =>
        exact .inr ⟨x, type, rfl, (hrect _ hside).imp_right ValueType.isRelative_iff.mp⟩
    · exact absurd hident (by simp)

/-- A family of fonts, a number in an unknown unit, a rectangle and a counter. -/
theorem classified_of_parse_mixture :
    ∃ v : Value Float, Value.parse? "Gill  Sans , 1FOO , rect(auto 0 -2em 5%) , counters(a,'.',b)" =
        .ok v ∧
      v.WellFormed ∧ v.items.length = 4 ∧ (∀ p ∈ v.items, ∀ x ∈ p.numbers, x.isNaN = false) ∧
      ∀ p ∈ v.items, ∀ name ∈ p.names, Trimmed name.toList := by
  have hparse : ∃ v : Value Float,
      Value.parse? "Gill  Sans , 1FOO , rect(auto 0 -2em 5%) , counters(a,'.',b)" = .ok v ∧
        v.items.length = 4 := ⟨_, by with_unfolding_all rfl, by with_unfolding_all rfl⟩
  obtain ⟨v, hv, hlength⟩ := hparse
  obtain ⟨hwellFormed, hitems⟩ := classified_of_parse hv
  exact ⟨v, hv, hwellFormed, hlength, fun p hp => (hitems p hp).1,
    fun p hp => (hitems p hp).2.2.2.1⟩

end ComputedCss
