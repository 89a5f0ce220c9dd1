import ComputedCss.Proofs.Number.Comparable
import ComputedCss.Proofs.Value.Numerals
import ComputedCss.Sheet

/-!
# Declarations that say what they show

A declaration keeps a text next to a value. The two are in step when the text is read as a value
that equals the other.

* `Declaration.Faithful`: the relation of the text and the value.
* `Declaration.Written`: the ways in which a declaration comes about.
* `Declaration.Written.faithful`: what is written in these ways is faithful, if it is finite.
-/

namespace ComputedCss

open Text Reading

/-- The text is read as a value that equals the value of the declaration. -/
def Declaration.Faithful {ν : Type} [Scalar ν] (declaration : Declaration ν) : Prop :=
  ∃ w, Value.parse? declaration.text = .ok w ∧ (w == declaration.value) = true

/-- A number, a percentage or a dimension in a known unit. -/
def ValueType.IsStandard : ValueType → Prop
  | .number | .percentage | .dimension _ => True
  | _ => False

/-- A declaration that is read from a text, or written as a number in a standard type or as a string
without null characters. -/
inductive Declaration.Written {ν : Type} [Scalar ν] : Declaration ν → Prop
  | read (text value) : Value.parse? text = .ok value → Written ⟨Text.trimmed text, value⟩
  | number (x type) : ValueType.IsStandard type → Written (.ofPrimitive (.numeric x type))
  | string (s) : '\x00' ∉ s.toList → Written (.ofPrimitive (.string s))

namespace Declaration

theorem parse?_trimmed {ν : Type} [Scalar ν] (text : String) :
    (Value.parse? (trimmed text) : Except (ValueError ν) (Value ν)) = Value.parse? text := by
  have htrim : trim (trimmed text).toList = trim text.toList := by
    unfold trimmed
    rw [String.toList_ofList, trim_eq_self (trimmed_trim _)]
  unfold Value.parse? Value.read
  rw [htrim]

theorem faithful_read {text : String} {value : Value Float} (h : Value.parse? text = .ok value) :
    (⟨trimmed text, value⟩ : Declaration Float).Faithful :=
  ⟨value, (parse?_trimmed text).trans h, beq_self_of_parse Binary64.ofNumeral_beq_self h⟩

theorem faithful_ofPrimitive {p : Primitive Float} (hp : p.WellFormed) (h : p.Reprintable)
    (hback : ∀ x ∈ p.numbers, (Binary64.ofFloat x).isFinite = true → ReadsBack x) :
    (Declaration.ofPrimitive p).Faithful := by
  obtain ⟨q, hread, hq⟩ := Primitive.readTrimmed_text hp h.legible (h.stable hback)
  exact ⟨.single q, parse_text_single (h.piece_text hp) hread, hq⟩

theorem faithful_number {x : Float} {type : ValueType} (htype : type.IsStandard)
    (hfinite : (Binary64.ofFloat x).isFinite = true) (hback : ReadsBack x) :
    (Declaration.ofPrimitive (.numeric x type)).Faithful := by
  have hread : (Primitive.numeric x type).WellFormed := by
    cases type with
    | number | percentage | dimension => trivial
    | _ => exact htype.elim
  have hdetached : type.Detached := by
    rintro unit rfl
    exact htype.elim
  have hnumbers : ∀ y ∈ (Primitive.numeric x type).numbers, y = x := fun y hy =>
    List.mem_singleton.mp hy
  refine faithful_ofPrimitive hread ⟨fun y hy => ?_, hdetached⟩ fun y hy _ => ?_
  · rw [hnumbers y hy]
    exact hfinite
  · rw [hnumbers y hy]
    exact hback

theorem faithful_string {s : String} (h : '\x00' ∉ s.toList) :
    (Declaration.ofPrimitive (.string s : Primitive Float)).Faithful := by
  have hnone : ∀ x, x ∉ (Primitive.string s : Primitive Float).numbers := fun x =>
    List.not_mem_nil
  exact faithful_ofPrimitive trivial ⟨fun x hx => absurd hx (hnone x), h⟩
    fun x hx => absurd hx (hnone x)

/-- **What is written is what is shown**, if a number that has been written is finite and reads
back. -/
theorem Written.faithful {declaration : Declaration Float} (h : declaration.Written)
    (hfinite : ∀ x type, declaration = .ofPrimitive (.numeric x type) →
      (Binary64.ofFloat x).isFinite = true)
    (hback : ∀ x type, declaration = .ofPrimitive (.numeric x type) →
      (Binary64.ofFloat x).isFinite = true → ReadsBack x) : declaration.Faithful := by
  cases h with
  | read text value hparse => exact faithful_read hparse
  | number x type htype =>
    have hx := hfinite x type rfl
    exact faithful_number htype hx (hback x type rfl hx)
  | string s hs => exact faithful_string hs

end Declaration

end ComputedCss
