import ComputedCss.Proofs.Text.Splitting

/-!
# Pieces that are joined and split again

Pieces without blanks at their ends are joined by a comma and a space, or by a space. Splitting what
is joined gives the pieces back, as long as no piece contains a cut itself.

* `splitTop_intercalate`: a list with commas.
* `piecesTop_intercalate`: a list whose separators may stand side by side, the empty pieces between
  them being dropped.
-/

namespace ComputedCss.Text

variable {isSeparator : Char → Bool}

/-! ## Every piece counts -/

theorem splitTop_cons_of_isBlank {c : Char} (hblank : isBlank c = true) (hplain : isPlain c = true)
    (hseparator : isSeparator c = false) (text : List Char) :
    splitTop isSeparator (c :: text) = splitTop isSeparator text := by
  have hcut : ¬ cuts isSeparator .top c = true := by simp [cuts, hseparator]
  rw [splitTop, splitFrom, if_neg hcut, step_of_isPlain rfl hplain, splitTop]
  dsimp only
  cases splitFrom isSeparator .top text with
  | error fault => rfl
  | ok parts => simp [Except.map, trim_cons_of_isBlank hblank]

theorem splitTop_intercalate {pieces : List (List Char)} (hne : pieces ≠ [])
    (h : ∀ piece ∈ pieces, Trimmed piece ∧ pass (· == ',') .top piece = some .top) :
    splitTop (· == ',') ([',', ' '].intercalate pieces) = .ok pieces := by
  induction pieces with
  | nil => exact absurd rfl hne
  | cons piece others ih =>
    obtain ⟨htrimmed, hpass⟩ := h piece List.mem_cons_self
    cases others with
    | nil => rw [List.intercalate_singleton, splitTop_of_pass hpass, trim_eq_self htrimmed]
    | cons next others =>
      rw [List.intercalate_cons_cons, List.append_assoc, List.cons_append, List.singleton_append,
        splitTop_append_separator hpass rfl rfl, splitTop_cons_of_isBlank rfl rfl rfl,
        ih (by simp) fun p hp => h p (List.mem_cons_of_mem _ hp), trim_eq_self htrimmed]
      rfl

/-! ## Empty pieces are dropped -/

theorem piecesTop_of_pass {text : List Char} (hne : text ≠ []) (htrimmed : Trimmed text)
    (h : pass isSeparator .top text = some .top) : piecesTop isSeparator text = .ok [text] := by
  rw [piecesTop, splitTop_of_pass h, trim_eq_self htrimmed]
  simp [Except.map, hne]

theorem piecesTop_append_separator {text : List Char} {c : Char} (hne : text ≠ [])
    (htrimmed : Trimmed text) (h : pass isSeparator .top text = some .top)
    (hseparator : isSeparator c = true) (hplain : isPlain c = true) (rest : List Char) :
    piecesTop isSeparator (text ++ c :: rest) =
      (piecesTop isSeparator rest).map (text :: ·) := by
  rw [piecesTop, splitTop_append_separator h hseparator (by simpa [isPlain] using hplain),
    trim_eq_self htrimmed, piecesTop]
  cases splitTop isSeparator rest with
  | error fault => rfl
  | ok pieces => simp [Except.map, hne]

theorem piecesTop_cons_separator {c : Char} (hseparator : isSeparator c = true)
    (hplain : isPlain c = true) (rest : List Char) :
    piecesTop isSeparator (c :: rest) = piecesTop isSeparator rest := by
  have hpass : pass isSeparator .top [] = some .top := rfl
  have hsplit := splitTop_append_separator hpass hseparator (by simpa [isPlain] using hplain) rest
  rw [List.nil_append] at hsplit
  rw [piecesTop, hsplit, piecesTop]
  cases splitTop isSeparator rest with
  | error fault => rfl
  | ok pieces => simp [Except.map]

theorem piecesTop_append_separators {separators : List Char} (rest : List Char)
    (h : ∀ c ∈ separators, isSeparator c = true ∧ isPlain c = true) :
    piecesTop isSeparator (separators ++ rest) = piecesTop isSeparator rest := by
  induction separators with
  | nil => rfl
  | cons c separators ih =>
    obtain ⟨hseparator, hplain⟩ := h c List.mem_cons_self
    rw [List.cons_append, piecesTop_cons_separator hseparator hplain]
    exact ih fun d hd => h d (List.mem_cons_of_mem c hd)

theorem piecesTop_intercalate {separators : List Char} (hseparators : separators ≠ [])
    (hall : ∀ c ∈ separators, isSeparator c = true ∧ isPlain c = true)
    {pieces : List (List Char)} (hpieces : pieces ≠ [])
    (h : ∀ piece ∈ pieces, piece ≠ [] ∧ Trimmed piece ∧ pass isSeparator .top piece = some .top) :
    piecesTop isSeparator (separators.intercalate pieces) = .ok pieces := by
  cases separators with
  | nil => exact absurd rfl hseparators
  | cons c separators =>
    obtain ⟨hseparator, hplain⟩ := hall c List.mem_cons_self
    have hothers := fun d hd => hall d (List.mem_cons_of_mem c hd)
    induction pieces with
    | nil => exact absurd rfl hpieces
    | cons piece others ih =>
      obtain ⟨hne, htrimmed, hpass⟩ := h piece List.mem_cons_self
      cases others with
      | nil => rw [List.intercalate_singleton, piecesTop_of_pass hne htrimmed hpass]
      | cons next others =>
        rw [List.intercalate_cons_cons, List.append_assoc, List.cons_append,
          piecesTop_append_separator hne htrimmed hpass hseparator hplain,
          piecesTop_append_separators _ hothers,
          ih (by simp) fun p hp => h p (List.mem_cons_of_mem _ hp)]
        rfl

/-! ## Pieces -/

/-- A text that is one item wherever it stands in a list. -/
structure Piece (text : List Char) : Prop where
  ne_nil : text ≠ []
  trimmed : Trimmed text
  uncut : Uncut text

theorem splitTop_comma {pieces : List (List Char)} (hne : pieces ≠ [])
    (h : ∀ piece ∈ pieces, Piece piece) :
    splitTop (· == ',') ([',', ' '].intercalate pieces) = .ok pieces :=
  splitTop_intercalate hne fun piece hpiece =>
    ⟨(h piece hpiece).trimmed, (h piece hpiece).uncut.comma⟩

theorem wordsTop_space {pieces : List (List Char)} (hne : pieces ≠ [])
    (h : ∀ piece ∈ pieces, Piece piece) :
    wordsTop ([' '].intercalate pieces) = .ok pieces :=
  piecesTop_intercalate (by simp) (by simp [isSpace, isPlain, isQuote]) hne fun piece hpiece =>
    ⟨(h piece hpiece).ne_nil, (h piece hpiece).trimmed, (h piece hpiece).uncut.space⟩

theorem piecesTop_break {pieces : List (List Char)} (hne : pieces ≠ [])
    (h : ∀ piece ∈ pieces, Piece piece) :
    piecesTop isBreak ([',', ' '].intercalate pieces) = .ok pieces :=
  piecesTop_intercalate (by simp) (by simp [isBreak, isSpace, isPlain, isQuote]) hne
    fun piece hpiece => ⟨(h piece hpiece).ne_nil, (h piece hpiece).trimmed, (h piece hpiece).uncut⟩

theorem pass_intercalate {isSeparator : Char → Bool} {separators : List Char}
    (hseparators : pass isSeparator .top separators = some .top) {pieces : List (List Char)}
    (h : ∀ piece ∈ pieces, pass isSeparator .top piece = some .top) :
    pass isSeparator .top (separators.intercalate pieces) = some .top := by
  induction pieces with
  | nil => rfl
  | cons piece others ih =>
    have hpiece := h piece List.mem_cons_self
    cases others with
    | nil =>
      rw [List.intercalate_singleton]
      exact hpiece
    | cons next others =>
      rw [List.intercalate_cons_cons, List.append_assoc, pass_append_of_eq hpiece,
        pass_append_of_eq hseparators]
      exact ih fun p hp => h p (List.mem_cons_of_mem _ hp)

theorem intercalate_ne_nil {separators : List Char} {pieces : List (List Char)}
    (hne : pieces ≠ []) (h : ∀ piece ∈ pieces, piece ≠ []) :
    separators.intercalate pieces ≠ [] := by
  cases pieces with
  | nil => exact absurd rfl hne
  | cons piece others =>
    have hpiece := h piece List.mem_cons_self
    cases others with
    | nil =>
      rw [List.intercalate_singleton]
      exact hpiece
    | cons next others =>
      rw [List.intercalate_cons_cons, List.append_assoc]
      exact List.append_ne_nil_of_left_ne_nil hpiece _

theorem trimmed_intercalate {separators : List Char} {pieces : List (List Char)}
    (h : ∀ piece ∈ pieces, piece ≠ [] ∧ Trimmed piece) :
    Trimmed (separators.intercalate pieces) := by
  induction pieces with
  | nil => exact ⟨by simp, by simp⟩
  | cons piece others ih =>
    obtain ⟨hne, htrimmed⟩ := h piece List.mem_cons_self
    cases others with
    | nil =>
      rw [List.intercalate_singleton]
      exact htrimmed
    | cons next others =>
      have hothers := fun p hp => h p (List.mem_cons_of_mem _ hp)
      have hrest : separators.intercalate (next :: others) ≠ [] :=
        intercalate_ne_nil (by simp) fun p hp => (hothers p hp).1
      rw [List.intercalate_cons_cons]
      refine Trimmed.append (by simp [hne]) hrest ?_ (ih hothers).last
      intro c hc
      cases piece with
      | nil => exact absurd rfl hne
      | cons d rest => exact htrimmed.head c hc

/-! ### Arguments -/

theorem balanced_intercalate {pieces : List (List Char)} (h : ∀ piece ∈ pieces, Piece piece) :
    Balanced ([',', ' '].intercalate pieces) :=
  pass_intercalate rfl fun piece hpiece => (h piece hpiece).uncut.balanced

theorem trim_intercalate {separators : List Char} {pieces : List (List Char)}
    (h : ∀ piece ∈ pieces, Piece piece) :
    trim (separators.intercalate pieces) = separators.intercalate pieces :=
  trim_eq_self (trimmed_intercalate fun piece hpiece =>
    ⟨(h piece hpiece).ne_nil, (h piece hpiece).trimmed⟩)

end ComputedCss.Text
