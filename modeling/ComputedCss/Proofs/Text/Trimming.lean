import Mathlib.Data.List.TakeWhile
import ComputedCss.Text.Blank

/-!
# Trimmed text

A text is trimmed when no blank stands at either end. Trimming makes a text trimmed and leaves a
trimmed text alone.
-/

namespace ComputedCss.Text

/-- A text without a blank at either end. -/
structure Trimmed (text : List Char) : Prop where
  head : ∀ c ∈ text.head?, isBlank c = false
  last : ∀ c ∈ text.getLast?, isBlank c = false

theorem trimStart_eq_self {text : List Char} (h : ∀ c ∈ text.head?, isBlank c = false) :
    trimStart text = text := by
  cases text with
  | nil => rfl
  | cons c rest =>
    have hc : isBlank c = false := h c rfl
    rw [trimStart, List.dropWhile_cons, hc]
    rfl

theorem trimEnd_eq_self {text : List Char} (h : ∀ c ∈ text.getLast?, isBlank c = false) :
    trimEnd text = text := by
  have hreverse : trimStart text.reverse = text.reverse := by
    apply trimStart_eq_self
    rw [List.head?_reverse]
    exact h
  rw [trimEnd, ← trimStart, hreverse, List.reverse_reverse]

theorem trim_eq_self {text : List Char} (h : Trimmed text) : trim text = text := by
  rw [trim, trimStart_eq_self h.head, trimEnd_eq_self h.last]

theorem isBlank_head_trimStart (text : List Char) :
    ∀ c ∈ (trimStart text).head?, isBlank c = false := by
  intro c hc
  have h := List.head?_dropWhile_not isBlank text
  rw [trimStart] at hc
  rw [Option.mem_def.mp hc] at h
  simpa using h

theorem trimEnd_isPrefix (text : List Char) : trimEnd text <+: text := by
  rw [← List.reverse_suffix, trimEnd, List.reverse_reverse]
  exact List.dropWhile_suffix isBlank

theorem trimmed_trim (text : List Char) : Trimmed (trim text) := by
  constructor
  · intro c hc
    obtain ⟨rest, hrest⟩ := trimEnd_isPrefix (trimStart text)
    apply isBlank_head_trimStart text
    cases htrim : trim text with
    | nil =>
      rw [htrim] at hc
      simp at hc
    | cons d others =>
      rw [htrim] at hc
      rw [trim] at htrim
      rw [htrim] at hrest
      rw [← hrest]
      exact hc
  · intro c hc
    rw [trim, trimEnd, List.getLast?_reverse] at hc
    exact isBlank_head_trimStart (trimStart text).reverse c hc

theorem exists_blanks_around_trim (text : List Char) :
    ∃ front back, text = front ++ (trim text ++ back) ∧ (∀ c ∈ front, isBlank c = true) ∧
      ∀ c ∈ back, isBlank c = true := by
  have hstart : text = text.takeWhile isBlank ++ trimStart text :=
    List.takeWhile_append_dropWhile.symm
  have hend : trimStart text = trim text ++ ((trimStart text).reverse.takeWhile isBlank).reverse := by
    rw [trim, trimEnd, ← List.reverse_append, List.takeWhile_append_dropWhile, List.reverse_reverse]
  refine ⟨_, _, hend ▸ hstart, fun c hc => List.mem_takeWhile_imp hc, fun c hc => ?_⟩
  exact List.mem_takeWhile_imp (List.mem_reverse.mp hc)

theorem trim_cons_of_isBlank {c : Char} (h : isBlank c = true) (text : List Char) :
    trim (c :: text) = trim text := by
  rw [trim, trim, trimStart, trimStart, List.dropWhile_cons, h]
  rfl

theorem trim_trimStart (text : List Char) : trim (trimStart text) = trim text := by
  rw [trim, trimStart_eq_self (isBlank_head_trimStart text), trim]

theorem trim_eq_self_of_length {text : List Char} (h : text.length ≤ (trim text).length) :
    trim text = text := by
  have hend := trimEnd_isPrefix (trimStart text)
  have hstart := List.dropWhile_suffix isBlank (l := text)
  have hsublist : (trim text).Sublist text := hend.sublist.trans hstart.sublist
  exact hsublist.eq_of_length_le h

theorem trimEnd_ne_nil {text : List Char} {c : Char} (hc : c ∈ text) (h : isBlank c = false) :
    trimEnd text ≠ [] := by
  intro hnil
  rw [trimEnd, List.reverse_eq_nil_iff, List.dropWhile_eq_nil_iff] at hnil
  have := hnil c (List.mem_reverse.mpr hc)
  rw [h] at this
  exact Bool.noConfusion this

theorem trim_ne_nil_of_head {c : Char} (h : isBlank c = false) (text : List Char) :
    trim (c :: text) ≠ [] := by
  rw [trim, trimStart_eq_self (by simpa using h)]
  exact trimEnd_ne_nil List.mem_cons_self h

theorem trimmed_of_forall {text : List Char} (h : ∀ c ∈ text, isBlank c = false) : Trimmed text :=
  ⟨fun c hc => h c (List.mem_of_mem_head? hc), fun c hc => h c (List.mem_of_mem_getLast? hc)⟩

theorem trimmed_of_all {text : List Char} (h : text.all (fun c => !isBlank c) = true) :
    Trimmed text :=
  trimmed_of_forall fun c hc => by simpa using List.all_eq_true.mp h c hc

theorem Trimmed.cons {c : Char} {text : List Char} (hc : isBlank c = false) (h : text ≠ [])
    (hlast : ∀ c ∈ text.getLast?, isBlank c = false) : Trimmed (c :: text) := by
  refine ⟨by simpa using hc, fun d hd => hlast d ?_⟩
  rwa [List.getLast?_cons_of_ne_nil h] at hd

theorem Trimmed.append {front back : List Char} (hfront : front ≠ []) (hback : back ≠ [])
    (hhead : ∀ c ∈ front.head?, isBlank c = false)
    (hlast : ∀ c ∈ back.getLast?, isBlank c = false) : Trimmed (front ++ back) := by
  constructor
  · intro c hc
    cases front with
    | nil => exact absurd rfl hfront
    | cons d rest => exact hhead c hc
  · intro c hc
    rw [List.getLast?_append, List.getLast?_eq_some_getLast hback] at hc
    apply hlast c
    rw [List.getLast?_eq_some_getLast hback]
    exact hc

theorem trim_append {back : List Char} (hne : back ≠ []) (h : Trimmed back) (front : List Char) :
    trim (front ++ back) = trimStart front ++ back := by
  have hstart : trimStart (front ++ back) = trimStart front ++ back := by
    simp only [trimStart, List.dropWhile_append]
    split
    · rename_i hempty
      rw [List.isEmpty_iff.mp hempty, List.nil_append]
      exact trimStart_eq_self h.head
    · rfl
  rw [trim, hstart]
  apply trimEnd_eq_self
  intro c hc
  rw [List.getLast?_append, List.getLast?_eq_some_getLast hne] at hc
  apply h.last c
  rw [List.getLast?_eq_some_getLast hne]
  exact hc

end ComputedCss.Text
