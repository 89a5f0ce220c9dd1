import ComputedCss.Text.Pieces
import ComputedCss.Proofs.Text.Splitting

/-!
# Words of a text

A word of a text stands between separators, or between a separator and an end of the text.

* `pieces_append_separator`: the pieces of a text are those before a separator and those after it.
* `intercalate_pieces`: what is cut at one character is joined with it again.
* `mem_pieces_iff`: the pieces of a text are its words.
* `splitTop_of_isPlain`: without quotes and parentheses the top level is the whole text.
* `exists_mem_splitTop_iff`: what holds of a text exactly when it holds of one side of a cut holds
  of a text exactly when it holds of one of its pieces.
-/

namespace ComputedCss.Text

variable {isSeparator : Char → Bool}

/-! ## Plain cutting -/

theorem pieces_cons_separator {c : Char} (hc : isSeparator c = true) (rest : List Char) :
    pieces isSeparator (c :: rest) = [] :: pieces isSeparator rest := by
  simp [pieces, piecesFrom, hc]

theorem piecesFrom_cons_of_not {c : Char} (hc : isSeparator c = false) (rest : List Char) :
    piecesFrom isSeparator (c :: rest) =
      (c :: (piecesFrom isSeparator rest).1, (piecesFrom isSeparator rest).2) := by
  simp [piecesFrom, hc]

/-- **A separator stands between the pieces before it and those after it.** -/
theorem pieces_append_separator {c : Char} (hc : isSeparator c = true) (front rest : List Char) :
    pieces isSeparator (front ++ c :: rest) =
      pieces isSeparator front ++ pieces isSeparator rest := by
  induction front with
  | nil => exact pieces_cons_separator hc rest
  | cons d front ih =>
    cases hd : isSeparator d with
    | true =>
      rw [List.cons_append, pieces_cons_separator hd, pieces_cons_separator hd, ih,
        List.cons_append]
    | false =>
      have hfirst := (List.cons.inj ih).1
      have hothers := (List.cons.inj ih).2
      simp only [pieces, List.cons_append, piecesFrom_cons_of_not hd]
      rw [hfirst, hothers]
      rfl

theorem pieces_of_forall {text : List Char} (h : ∀ c ∈ text, isSeparator c = false) :
    pieces isSeparator text = [text] := by
  induction text with
  | nil => rfl
  | cons c rest ih =>
    have hrest := ih fun d hd => h d (List.mem_cons_of_mem c hd)
    simp only [pieces, List.cons.injEq] at hrest ⊢
    rw [piecesFrom_cons_of_not (h c List.mem_cons_self)]
    exact ⟨congrArg (c :: ·) hrest.1, hrest.2⟩

theorem pieces_congr {isOther : Char → Bool} {text : List Char}
    (h : ∀ c ∈ text, isSeparator c = isOther c) :
    pieces isSeparator text = pieces isOther text := by
  have hfrom : piecesFrom isSeparator text = piecesFrom isOther text := by
    induction text with
    | nil => rfl
    | cons c rest ih =>
      simp only [piecesFrom, h c List.mem_cons_self,
        ih fun d hd => h d (List.mem_cons_of_mem c hd)]
  rw [pieces, hfrom, pieces]

theorem pieces_map {f : Char → Char} (hf : ∀ c, isSeparator (f c) = isSeparator c)
    (text : List Char) :
    pieces isSeparator (text.map f) = (pieces isSeparator text).map (List.map f) := by
  induction text with
  | nil => rfl
  | cons c rest ih =>
    have hfirst := (List.cons.inj ih).1
    have hothers := (List.cons.inj ih).2
    cases hc : isSeparator c with
    | true =>
      rw [List.map_cons, pieces_cons_separator ((hf c).trans hc), pieces_cons_separator hc, ih]
      rfl
    | false =>
      simp only [pieces, List.map_cons, piecesFrom_cons_of_not hc,
        piecesFrom_cons_of_not ((hf c).trans hc)]
      rw [hfirst, hothers]

theorem intercalate_pieces (c : Char) (text : List Char) :
    [c].intercalate (pieces (· == c) text) = text := by
  induction text with
  | nil => rfl
  | cons d rest ih =>
    by_cases hd : d = c
    · subst hd
      rw [pieces_cons_separator (by simp), pieces, List.intercalate_cons_cons, List.nil_append]
      exact congrArg (d :: ·) ih
    · rw [pieces] at ih ⊢
      rw [piecesFrom_cons_of_not (by simpa using hd)]
      generalize piecesFrom (· == c) rest = parts at ih ⊢
      obtain ⟨first, others⟩ := parts
      dsimp only at ih ⊢
      cases others with
      | nil =>
        rw [List.intercalate_singleton] at ih ⊢
        exact congrArg (d :: ·) ih
      | cons next others =>
        rw [List.intercalate_cons_cons] at ih ⊢
        exact congrArg (d :: ·) ih

/-! ## Words -/

/-- The word stands between separators, or at an end of the text. -/
structure IsWord (isSeparator : Char → Bool) (front word back : List Char) : Prop where
  word : ∀ c ∈ word, isSeparator c = false
  before : ∀ c ∈ front.getLast?, isSeparator c = true
  after : ∀ c ∈ back.head?, isSeparator c = true

theorem exists_back_of_piecesFrom (isSeparator : Char → Bool) (text : List Char) :
    ∃ back, text = (piecesFrom isSeparator text).1 ++ back ∧
      IsWord isSeparator [] (piecesFrom isSeparator text).1 back := by
  induction text with
  | nil => exact ⟨[], rfl, ⟨by simp [piecesFrom], by simp, by simp⟩⟩
  | cons c rest ih =>
    cases hc : isSeparator c with
    | true =>
      refine ⟨c :: rest, by simp [piecesFrom, hc], ⟨by simp [piecesFrom, hc], by simp, ?_⟩⟩
      simpa using hc
    | false =>
      obtain ⟨back, hback, hword⟩ := ih
      rw [piecesFrom_cons_of_not hc]
      refine ⟨back, congrArg (c :: ·) hback, ⟨fun d hd => ?_, by simp, hword.after⟩⟩
      rcases List.mem_cons.mp hd with rfl | hd
      · exact hc
      · exact hword.word d hd

theorem IsWord.cons {front word back : List Char} (h : IsWord isSeparator front word back)
    {c : Char} (hc : front = [] → isSeparator c = true) :
    IsWord isSeparator (c :: front) word back := by
  refine ⟨h.word, fun d hd => ?_, h.after⟩
  cases front with
  | nil =>
    obtain rfl : c = d := by simpa using hd
    exact hc rfl
  | cons e front =>
    rw [List.getLast?_cons_cons] at hd
    exact h.before d hd

theorem exists_of_mem_piecesFrom {text word : List Char}
    (h : word ∈ (piecesFrom isSeparator text).2) :
    ∃ front back, front ≠ [] ∧ text = front ++ (word ++ back) ∧
      IsWord isSeparator front word back := by
  induction text with
  | nil => exact absurd h List.not_mem_nil
  | cons c rest ih =>
    cases hc : isSeparator c with
    | true =>
      have hothers : (piecesFrom isSeparator (c :: rest)).2 =
          (piecesFrom isSeparator rest).1 :: (piecesFrom isSeparator rest).2 := by
        simp [piecesFrom, hc]
      rw [hothers] at h
      rcases List.mem_cons.mp h with rfl | hmem
      · obtain ⟨back, hback, hword⟩ := exists_back_of_piecesFrom isSeparator rest
        exact ⟨[c], back, by simp, congrArg (c :: ·) hback, hword.cons fun _ => hc⟩
      · obtain ⟨front, back, -, hrest, hword⟩ := ih hmem
        exact ⟨c :: front, back, by simp, congrArg (c :: ·) hrest, hword.cons fun _ => hc⟩
    | false =>
      rw [piecesFrom_cons_of_not hc] at h
      obtain ⟨front, back, hne, hrest, hword⟩ := ih h
      exact ⟨c :: front, back, by simp, congrArg (c :: ·) hrest,
        hword.cons fun hnil => absurd hnil hne⟩

theorem pieces_word_append {front word back : List Char} (h : IsWord isSeparator front word back) :
    ∃ others, pieces isSeparator (word ++ back) = word :: others := by
  cases back with
  | nil =>
    rw [List.append_nil, pieces_of_forall h.word]
    exact ⟨[], rfl⟩
  | cons c back =>
    rw [pieces_append_separator (h.after c rfl), pieces_of_forall h.word]
    exact ⟨_, rfl⟩

/-- **The pieces after the first one are the words that stand after a separator.** -/
theorem mem_tail_pieces_iff {text word : List Char} :
    word ∈ (pieces isSeparator text).tail ↔ ∃ front back, front ≠ [] ∧
      text = front ++ (word ++ back) ∧ IsWord isSeparator front word back := by
  refine ⟨exists_of_mem_piecesFrom, ?_⟩
  rintro ⟨front, back, hne, rfl, hword⟩
  obtain ⟨before, c, rfl⟩ : ∃ before c, front = before ++ [c] :=
    ⟨_, _, (List.dropLast_concat_getLast hne).symm⟩
  obtain ⟨others, hothers⟩ := pieces_word_append hword
  have hc : isSeparator c = true := hword.before c (by simp)
  rw [List.append_assoc, List.singleton_append, pieces_append_separator hc, hothers, pieces,
    List.cons_append, List.tail_cons]
  exact List.mem_append_right _ List.mem_cons_self

/-- **The pieces of a text are its words.** -/
theorem mem_pieces_iff {text word : List Char} :
    word ∈ pieces isSeparator text ↔ ∃ front back,
      text = front ++ (word ++ back) ∧ IsWord isSeparator front word back := by
  constructor
  · intro h
    rcases List.mem_cons.mp h with rfl | hmem
    · obtain ⟨back, hback, hword⟩ := exists_back_of_piecesFrom isSeparator text
      exact ⟨[], back, hback, hword⟩
    · obtain ⟨front, back, -, htext, hword⟩ := exists_of_mem_piecesFrom hmem
      exact ⟨front, back, htext, hword⟩
  · rintro ⟨front, back, rfl, hword⟩
    by_cases hne : front = []
    · obtain ⟨others, hothers⟩ := pieces_word_append hword
      rw [hne, List.nil_append, hothers]
      exact List.mem_cons_self
    · exact List.mem_of_mem_tail (mem_tail_pieces_iff.mpr ⟨front, back, hne, rfl, hword⟩)

theorem word_before_or_after {front word back left right : List Char}
    (hword : ∀ c ∈ word, isSeparator c = false) (hne : word ≠ [])
    (hright : ∀ c ∈ right.head?, isSeparator c = true)
    (h : front ++ (word ++ back) = left ++ right) :
    (∃ more, left = front ++ (word ++ more) ∧ back = more ++ right) ∨
    (∃ more, more ≠ [] ∧ front = left ++ more ∧ right = more ++ (word ++ back)) := by
  -- A word that goes on past the separator would contain it.
  have hcross : ∀ first rest, first ≠ [] → right = first ++ rest → (∀ c ∈ first, c ∈ word) →
      False := by
    intro first rest hfirst hrest hall
    cases first with
    | nil => exact hfirst rfl
    | cons c first =>
      have htrue := hright c (by simp [hrest])
      rw [hword c (hall c List.mem_cons_self)] at htrue
      exact Bool.noConfusion htrue
  rcases List.append_eq_append_iff.mp h with ⟨more, hleft, hmore⟩ | ⟨more, hfront, hmore⟩
  · rcases List.append_eq_append_iff.mp hmore with ⟨rest, hrest, hback⟩ | ⟨rest, hrest, hback⟩
    · exact .inl ⟨rest, hrest ▸ hleft, hback⟩
    · by_cases hnil : rest = []
      · subst hnil
        refine .inl ⟨[], ?_, by simpa using hback.symm⟩
        rw [List.append_nil] at hrest ⊢
        rw [hleft, hrest]
      · exact (hcross rest back hnil hback fun c hc => hrest ▸ List.mem_append_right _ hc).elim
  · by_cases hnil : more = []
    · subst hnil
      exact (hcross word back hne hmore fun c hc => hc).elim
    · exact .inr ⟨more, hnil, hfront, hmore⟩

/-! ## Pieces of the top level -/

theorem splitFrom_of_isPlain {text : List Char} (hplain : ∀ c ∈ text, isPlain c = true) :
    splitFrom isSeparator .top text = .ok (piecesFrom isSeparator text) := by
  induction text with
  | nil => rfl
  | cons c rest ih =>
    have hc := hplain c List.mem_cons_self
    have hrest := ih fun d hd => hplain d (List.mem_cons_of_mem c hd)
    cases hseparator : isSeparator c with
    | true =>
      have hcut := cuts_top hseparator (by simpa [isPlain] using hc)
      rw [splitFrom, if_pos hcut, hrest]
      simp [piecesFrom, hseparator, Except.map]
    | false =>
      have hcut : ¬ cuts isSeparator .top c = true := by simp [cuts, hseparator]
      rw [splitFrom, if_neg hcut, step_of_isPlain rfl hc, piecesFrom_cons_of_not hseparator]
      dsimp only
      rw [hrest]
      rfl

theorem splitTop_of_isPlain {text : List Char} (hplain : ∀ c ∈ text, isPlain c = true) :
    splitTop isSeparator text = .ok ((pieces isSeparator text).map trim) := by
  rw [splitTop, splitFrom_of_isPlain hplain]
  rfl

theorem balanced_append_cons {front rest : List Char} {c : Char} (hfront : Balanced front)
    (hc : isPlain c = true) (hrest : Balanced rest) : Balanced (front ++ c :: rest) := by
  rw [Balanced, pass_append_of_eq hfront, pass_cons (by simp [cuts]) (step_of_isPlain rfl hc)]
  exact hrest

theorem balanced_of_splitTop {text : List Char} {pieces : List (List Char)}
    (h : splitTop isSeparator text = .ok pieces) : Balanced text := by
  obtain ⟨first, others, hsplit, -⟩ := exists_splitFrom_of_splitTop h
  clear h
  induction others generalizing text first with
  | nil =>
    rcases exists_of_splitFrom (fun _ => rfl) hsplit with ⟨-, -, hpass⟩ |
      ⟨c, rest, second, more, -, -, -, -, -, heq⟩
    · exact pass_mono (by simp) hpass
    · exact absurd heq (by simp)
  | cons next others ih =>
    rcases exists_of_splitFrom (fun _ => rfl) hsplit with ⟨-, heq, -⟩ |
      ⟨c, rest, second, more, rfl, -, hplain, hfirst, hrest, heq⟩
    · exact absurd heq (by simp)
    · obtain ⟨rfl, rfl⟩ := List.cons.inj heq
      exact balanced_append_cons (pass_mono (by simp) hfirst) hplain (ih next hrest)

/-- What holds of a text exactly when it holds of one side of a cut, and does not depend on blanks at
the ends, holds of a text exactly when it holds of one of the pieces. -/
theorem exists_mem_splitTop_iff {P : List Char → Prop}
    (hcut : ∀ front c rest, Balanced front → isSeparator c = true → isPlain c = true →
      (P (front ++ c :: rest) ↔ P front ∨ P rest))
    (htrim : ∀ text, P (trim text) ↔ P text) {text : List Char} {pieces : List (List Char)}
    (h : splitTop isSeparator text = .ok pieces) : P text ↔ ∃ piece ∈ pieces, P piece := by
  obtain ⟨first, others, hsplit, rfl⟩ := exists_splitFrom_of_splitTop h
  clear h
  induction others generalizing text first with
  | nil =>
    rcases exists_of_splitFrom (fun _ => rfl) hsplit with ⟨rfl, -, -⟩ |
      ⟨c, rest, second, more, -, -, -, -, -, heq⟩
    · simp [htrim]
    · exact absurd heq (by simp)
  | cons next others ih =>
    rcases exists_of_splitFrom (fun _ => rfl) hsplit with ⟨-, heq, -⟩ |
      ⟨c, rest, second, more, rfl, hseparator, hplain, hfirst, hrest, heq⟩
    · exact absurd heq (by simp)
    · obtain ⟨rfl, rfl⟩ := List.cons.inj heq
      have hbalanced : Balanced first := pass_mono (by simp) hfirst
      rw [hcut first c rest hbalanced hseparator hplain, ih next hrest]
      simp only [List.map_cons, List.mem_cons, exists_eq_or_imp, htrim]

end ComputedCss.Text
