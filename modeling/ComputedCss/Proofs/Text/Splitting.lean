import ComputedCss.Text.Nesting
import ComputedCss.Proofs.Text.Trimming

/-!
# Splitting at the top level

`pass` moves a scan past a text in which nothing is cut. Splitting a text that is made of such parts
with separators in between gives the parts back.

* `splitTop_append_separator`: a part, a separator and any text split into the part and the pieces of
  that text.
* `pass_call`: a call of a function with a balanced argument has no cut, whatever the separators are.
* `checkNesting_eq_ok`: the check of a text succeeds exactly when the text is `Balanced`.
-/

namespace ComputedCss.Text

variable {isSeparator : Char → Bool}

/-- The place after a text in which nothing is cut, if there is no cut and no failure. -/
def pass (isSeparator : Char → Bool) : Nesting → List Char → Option Nesting
  | nesting, [] => some nesting
  | nesting, c :: rest =>
    if cuts isSeparator nesting c then none
    else (nesting.step c).bind fun next => pass isSeparator next rest

theorem pass_cons {nesting next : Nesting} {c : Char} {rest : List Char}
    (hcut : cuts isSeparator nesting c = false) (hstep : nesting.step c = some next) :
    pass isSeparator nesting (c :: rest) = pass isSeparator next rest := by
  rw [pass, hcut, hstep]
  rfl

theorem pass_append (nesting : Nesting) (front back : List Char) :
    pass isSeparator nesting (front ++ back) =
      (pass isSeparator nesting front).bind fun next => pass isSeparator next back := by
  induction front generalizing nesting with
  | nil => rfl
  | cons c rest ih =>
    rw [List.cons_append, pass, pass]
    split
    · rfl
    · cases nesting.step c with
      | none => rfl
      | some next => exact ih next

theorem pass_append_of_eq {nesting next : Nesting} {front : List Char}
    (h : pass isSeparator nesting front = some next) (back : List Char) :
    pass isSeparator nesting (front ++ back) = pass isSeparator next back := by
  rw [pass_append, h]
  rfl

/-! ## Splitting -/

theorem splitFrom_append {nesting next : Nesting} {front : List Char}
    (h : pass isSeparator nesting front = some next) (back : List Char) :
    splitFrom isSeparator nesting (front ++ back) =
      (splitFrom isSeparator next back).map fun (first, others) => (front ++ first, others) := by
  induction front generalizing nesting with
  | nil =>
    obtain rfl : nesting = next := Option.some.inj h
    rw [List.nil_append]
    cases splitFrom isSeparator nesting back <;> rfl
  | cons c rest ih =>
    rw [pass] at h
    split at h
    · exact absurd h (by simp)
    · rename_i hcut
      obtain ⟨middle, hstep, hrest⟩ := Option.bind_eq_some_iff.mp h
      rw [List.cons_append, splitFrom, if_neg hcut, hstep]
      dsimp only
      rw [ih hrest]
      cases splitFrom isSeparator next back <;> rfl

theorem cuts_top {c : Char} (hseparator : isSeparator c = true)
    (hplain : (isQuote c || c == '(' || c == ')') = false) :
    cuts isSeparator .top c = true := by
  rw [cuts, hseparator, hplain]
  rfl

theorem splitTop_of_pass {text : List Char} (h : pass isSeparator .top text = some .top) :
    splitTop isSeparator text = .ok [trim text] := by
  have hsplit := splitFrom_append h []
  rw [List.append_nil] at hsplit
  rw [splitTop, hsplit]
  simp [splitFrom, Nesting.endFault, Nesting.top, Except.map]

theorem splitTop_append_separator {text : List Char} {c : Char}
    (h : pass isSeparator .top text = some .top) (hseparator : isSeparator c = true)
    (hplain : (isQuote c || c == '(' || c == ')') = false) (rest : List Char) :
    splitTop isSeparator (text ++ c :: rest) =
      (splitTop isSeparator rest).map (trim text :: ·) := by
  rw [splitTop, splitFrom_append h, splitFrom, if_pos (cuts_top hseparator hplain), splitTop]
  cases splitFrom isSeparator .top rest with
  | error fault => rfl
  | ok pieces => simp [Except.map]

theorem exists_splitFrom_of_splitTop {text : List Char} {pieces : List (List Char)}
    (h : splitTop isSeparator text = .ok pieces) :
    ∃ first others, splitFrom isSeparator .top text = .ok (first, others) ∧
      (first :: others).map trim = pieces := by
  rw [splitTop] at h
  cases hsplit : splitFrom isSeparator .top text with
  | error fault =>
    rw [hsplit] at h
    exact absurd h (by simp [Except.map])
  | ok parts =>
    rw [hsplit] at h
    exact ⟨parts.1, parts.2, rfl, Except.ok.inj h⟩

theorem trimmed_of_mem_splitTop {text piece : List Char} {pieces : List (List Char)}
    (h : splitTop isSeparator text = .ok pieces) (hpiece : piece ∈ pieces) : Trimmed piece := by
  obtain ⟨first, others, -, rfl⟩ := exists_splitFrom_of_splitTop h
  obtain ⟨part, -, rfl⟩ := List.mem_map.mp hpiece
  exact trimmed_trim part

theorem splitTop_ne_nil {text : List Char} {pieces : List (List Char)}
    (h : splitTop isSeparator text = .ok pieces) : pieces ≠ [] := by
  obtain ⟨first, others, -, rfl⟩ := exists_splitFrom_of_splitTop h
  simp

theorem exists_splitTop_of_piecesTop {text : List Char} {pieces : List (List Char)}
    (h : piecesTop isSeparator text = .ok pieces) :
    ∃ parts, splitTop isSeparator text = .ok parts ∧
      ∀ piece, piece ∈ pieces ↔ piece ∈ parts ∧ piece ≠ [] := by
  rw [piecesTop] at h
  cases hsplit : splitTop isSeparator text with
  | error fault =>
    rw [hsplit] at h
    exact absurd h (by simp [Except.map])
  | ok parts =>
    rw [hsplit] at h
    obtain rfl : parts.filter (!·.isEmpty) = pieces := by simpa [Except.map] using h
    exact ⟨parts, rfl, by simp⟩

theorem trimmed_of_mem_piecesTop {text piece : List Char} {pieces : List (List Char)}
    (h : piecesTop isSeparator text = .ok pieces) (hpiece : piece ∈ pieces) :
    Trimmed piece ∧ piece ≠ [] := by
  obtain ⟨parts, hparts, hmem⟩ := exists_splitTop_of_piecesTop h
  obtain ⟨hpart, hne⟩ := (hmem piece).mp hpiece
  exact ⟨trimmed_of_mem_splitTop hparts hpart, hne⟩

theorem wordsTop_ne_nil {c : Char} {rest : List Char} {words : List (List Char)}
    (hc : isBlank c = false) (h : wordsTop (c :: rest) = .ok words) : words ≠ [] := by
  have hspace : isSpace c = false := by
    rw [Bool.eq_false_iff]
    intro hspace
    rw [isBlank_of_isSpace hspace] at hc
    exact Bool.noConfusion hc
  have hcut : ¬ cuts isSpace .top c = true := by simp [cuts, hspace]
  rw [wordsTop, piecesTop, splitTop, splitFrom, if_neg hcut] at h
  cases hstep : Nesting.top.step c with
  | none =>
    rw [hstep] at h
    exact absurd h (by simp [Except.map])
  | some next =>
    rw [hstep] at h
    dsimp only at h
    cases hsplit : splitFrom isSpace next rest with
    | error fault =>
      rw [hsplit] at h
      exact absurd h (by simp [Except.map])
    | ok parts =>
      rw [hsplit] at h
      have hfirst := trim_ne_nil_of_head hc parts.1
      rintro rfl
      simp [Except.map, hfirst] at h

/-! ## Steps -/

theorem step_escaped (quote : Char) (depth : Nat) (c : Char) :
    Nesting.step ⟨some quote, true, depth⟩ c = some ⟨some quote, false, depth⟩ := rfl

theorem step_quoted (quote : Char) (depth : Nat) (c : Char) :
    Nesting.step ⟨some quote, false, depth⟩ c =
      if c == '\\' then some ⟨some quote, true, depth⟩
      else if c == quote then some ⟨none, false, depth⟩
      else some ⟨some quote, false, depth⟩ := rfl

theorem step_unquoted (escaped : Bool) (depth : Nat) (c : Char) :
    Nesting.step ⟨none, escaped, depth⟩ c =
      if isQuote c then some ⟨some c, escaped, depth⟩
      else if c == '(' then some ⟨none, escaped, depth + 1⟩
      else if c == ')' then
        match depth with
        | 0 => none
        | depth + 1 => some ⟨none, escaped, depth⟩
      else some ⟨none, escaped, depth⟩ := rfl

/-! ## Plain text -/

/-- A character that changes no nesting outside quotes. -/
def isPlain (c : Char) : Bool :=
  !(isQuote c || c == '(' || c == ')')

theorem step_of_isPlain {nesting : Nesting} {c : Char} (hquote : nesting.quote = none)
    (hc : isPlain c = true) : nesting.step c = some nesting := by
  simp only [isPlain, Bool.not_eq_true', Bool.or_eq_false_iff] at hc
  obtain ⟨⟨hq, hopen⟩, hclose⟩ := hc
  rw [Nesting.step, hquote]
  simp [hq, hopen, hclose]

theorem isPlain_of_isBlank {c : Char} (h : isBlank c = true) : isPlain c = true := by
  by_contra hplain
  have hc : ((c = '\x22' ∨ c = '\x27') ∨ c = '(') ∨ c = ')' := by
    simpa [isPlain, isQuote, or_assoc, imp_iff_not_or, not_and_or] using hplain
  rcases hc with ((rfl | rfl) | rfl) | rfl <;> exact absurd h (by decide)

theorem pass_of_isPlain {nesting : Nesting} {text : List Char} (hquote : nesting.quote = none)
    (h : ∀ c ∈ text, isPlain c = true ∧ isSeparator c = false) :
    pass isSeparator nesting text = some nesting := by
  induction text with
  | nil => rfl
  | cons c rest ih =>
    obtain ⟨hplain, hseparator⟩ := h c List.mem_cons_self
    rw [pass_cons (by simp [cuts, hseparator]) (step_of_isPlain hquote hplain)]
    exact ih fun d hd => h d (List.mem_cons_of_mem c hd)

/-! ## Parentheses -/

/-- The place with more parentheses open around it. -/
def Nesting.deepen (nesting : Nesting) (n : Nat) : Nesting :=
  { nesting with depth := nesting.depth + n }

theorem step_deepen {nesting next : Nesting} {c : Char} (n : Nat)
    (h : nesting.step c = some next) : (nesting.deepen n).step c = some (next.deepen n) := by
  obtain ⟨quote, escaped, depth⟩ := nesting
  rw [Nesting.deepen]
  cases quote with
  | some quote =>
    cases escaped with
    | true =>
      rw [step_escaped] at h ⊢
      obtain rfl := Option.some.inj h
      rfl
    | false =>
      rw [step_quoted] at h ⊢
      split_ifs at h ⊢ <;> obtain rfl := Option.some.inj h <;> rfl
  | none =>
    rw [step_unquoted] at h ⊢
    split_ifs at h ⊢
    · obtain rfl := Option.some.inj h
      rfl
    · obtain rfl := Option.some.inj h
      rw [Nesting.deepen, Nat.add_right_comm]
    · cases depth with
      | zero => exact absurd h (by simp)
      | succ depth =>
        obtain rfl := Option.some.inj h
        rw [Nat.add_right_comm]
        rfl
    · obtain rfl := Option.some.inj h
      rfl

theorem cuts_deepen (nesting : Nesting) (n : Nat) (c : Char) :
    cuts isSeparator (nesting.deepen (n + 1)) c = false := by
  simp [cuts, Nesting.isTop, Nesting.deepen]

/-- The separators that a text is split at. -/
abbrev noSeparator : Char → Bool := fun _ => false

theorem pass_deepen {nesting next : Nesting} {text : List Char} (n : Nat)
    (h : pass noSeparator nesting text = some next) :
    pass isSeparator (nesting.deepen (n + 1)) text = some (next.deepen (n + 1)) := by
  induction text generalizing nesting with
  | nil =>
    obtain rfl : nesting = next := Option.some.inj h
    rfl
  | cons c rest ih =>
    rw [pass, if_neg (by simp [cuts])] at h
    obtain ⟨middle, hstep, hrest⟩ := Option.bind_eq_some_iff.mp h
    rw [pass_cons (cuts_deepen nesting n c) (step_deepen (n + 1) hstep)]
    exact ih hrest

theorem pass_mono {isFewer : Char → Bool} (hle : ∀ c, isFewer c = true → isSeparator c = true)
    {nesting next : Nesting} {text : List Char}
    (h : pass isSeparator nesting text = some next) :
    pass isFewer nesting text = some next := by
  induction text generalizing nesting with
  | nil => exact h
  | cons c rest ih =>
    rw [pass] at h
    split at h
    · exact absurd h (by simp)
    · rename_i hcut
      have hfewer : cuts isFewer nesting c = false := by
        rw [Bool.eq_false_iff]
        intro hfewer
        apply hcut
        simp only [cuts, Bool.and_eq_true] at hfewer ⊢
        exact ⟨⟨hfewer.1.1, hle c hfewer.1.2⟩, hfewer.2⟩
      obtain ⟨middle, hstep, hrest⟩ := Option.bind_eq_some_iff.mp h
      rw [pass_cons hfewer hstep]
      exact ih hrest

/-- Quotes and parentheses are closed in the order in which they are opened. -/
def Balanced (text : List Char) : Prop :=
  pass noSeparator .top text = some .top

theorem balanced_of_trim {text : List Char} (h : Balanced (trim text)) : Balanced text := by
  have hblanks : ∀ blanks : List Char, (∀ c ∈ blanks, isBlank c = true) →
      pass noSeparator .top blanks = some .top := fun blanks hall =>
    pass_of_isPlain rfl fun c hc => ⟨isPlain_of_isBlank (hall c hc), rfl⟩
  obtain ⟨front, back, htext, hfront, hback⟩ := exists_blanks_around_trim text
  rw [Balanced, htext, pass_append_of_eq (hblanks front hfront), pass_append_of_eq h]
  exact hblanks back hback

theorem pass_call {name arguments : List Char}
    (hname : ∀ c ∈ name, isPlain c = true ∧ isSeparator c = false)
    (harguments : Balanced arguments) :
    pass isSeparator .top (name ++ '(' :: (arguments ++ [')'])) = some .top := by
  have hopen : Nesting.top.step '(' = some (Nesting.top.deepen 1) := rfl
  have hclose : (Nesting.top.deepen 1).step ')' = some .top := rfl
  rw [pass_append_of_eq (pass_of_isPlain rfl hname), pass_cons (by simp [cuts]) hopen,
    pass_append_of_eq (pass_deepen 0 harguments), pass_cons (cuts_deepen _ 0 _) hclose]
  rfl

/-- Outside quotes nothing is protected. -/
def Nesting.Proper (nesting : Nesting) : Prop :=
  nesting.quote = none → nesting.escaped = false

theorem proper_step {nesting next : Nesting} {c : Char} (hproper : nesting.Proper)
    (h : nesting.step c = some next) : next.Proper := by
  obtain ⟨quote, escaped, depth⟩ := nesting
  cases quote with
  | some quote =>
    cases escaped with
    | true =>
      rw [step_escaped] at h
      obtain rfl := Option.some.inj h
      exact fun _ => rfl
    | false =>
      rw [step_quoted] at h
      split_ifs at h
      · obtain rfl := Option.some.inj h
        exact fun hquote => absurd hquote (by simp)
      · obtain rfl := Option.some.inj h
        exact fun _ => rfl
      · obtain rfl := Option.some.inj h
        exact fun _ => rfl
  | none =>
    obtain rfl : escaped = false := hproper rfl
    rw [step_unquoted] at h
    split_ifs at h
    · obtain rfl := Option.some.inj h
      exact fun _ => rfl
    · obtain rfl := Option.some.inj h
      exact fun _ => rfl
    · cases depth with
      | zero => exact absurd h (by simp)
      | succ depth =>
        obtain rfl := Option.some.inj h
        exact fun _ => rfl
    · obtain rfl := Option.some.inj h
      exact fun _ => rfl

theorem proper_of_pass {nesting next : Nesting} {text : List Char} (hproper : nesting.Proper)
    (h : pass isSeparator nesting text = some next) : next.Proper := by
  induction text generalizing nesting with
  | nil => exact Option.some.inj h ▸ hproper
  | cons c rest ih =>
    rw [pass] at h
    split at h
    · exact absurd h (by simp)
    · obtain ⟨middle, hstep, hrest⟩ := Option.bind_eq_some_iff.mp h
      exact ih (proper_step hproper hstep) hrest

theorem eq_top_of_endFault {nesting : Nesting} (hproper : nesting.Proper)
    (h : nesting.endFault = none) : nesting = .top := by
  obtain ⟨quote, escaped, depth⟩ := nesting
  cases quote with
  | some quote => exact absurd h (by simp [Nesting.endFault])
  | none =>
    obtain rfl : escaped = false := hproper rfl
    cases depth with
    | succ depth => exact absurd h (by simp [Nesting.endFault])
    | zero => rfl

theorem eq_top_of_isTop {nesting : Nesting} (hproper : nesting.Proper)
    (h : nesting.isTop = true) : nesting = .top := by
  obtain ⟨quote, escaped, depth⟩ := nesting
  obtain ⟨rfl, rfl⟩ : quote = none ∧ depth = 0 := by simpa [Nesting.isTop] using h
  obtain rfl : escaped = false := hproper rfl
  rfl

theorem exists_of_splitFrom {nesting : Nesting} {text first : List Char}
    {others : List (List Char)} (hproper : nesting.Proper)
    (h : splitFrom isSeparator nesting text = .ok (first, others)) :
    (first = text ∧ others = [] ∧ pass isSeparator nesting text = some .top) ∨
    ∃ c rest second more, text = first ++ c :: rest ∧ isSeparator c = true ∧ isPlain c = true ∧
      pass isSeparator nesting first = some .top ∧
      splitFrom isSeparator .top rest = .ok (second, more) ∧ others = second :: more := by
  induction text generalizing nesting first with
  | nil =>
    rw [splitFrom] at h
    cases hfault : nesting.endFault with
    | some fault =>
      rw [hfault] at h
      exact absurd h (by simp)
    | none =>
      rw [hfault] at h
      obtain ⟨rfl, rfl⟩ : [] = first ∧ [] = others := by simpa using h
      obtain rfl := eq_top_of_endFault hproper hfault
      exact .inl ⟨rfl, rfl, rfl⟩
  | cons c rest ih =>
    rw [splitFrom] at h
    split at h
    · -- The first piece ends here, and what follows is split from the top level again.
      rename_i hcut
      simp only [cuts, Bool.and_eq_true] at hcut
      obtain ⟨⟨htop, hseparator⟩, hplain⟩ := hcut
      obtain rfl := eq_top_of_isTop hproper htop
      cases hsplit : splitFrom isSeparator .top rest with
      | error fault =>
        rw [hsplit] at h
        exact absurd h (by simp [Except.map])
      | ok parts =>
        rw [hsplit] at h
        obtain ⟨rfl, rfl⟩ : [] = first ∧ parts.1 :: parts.2 = others := by
          simpa [Except.map] using h
        exact .inr ⟨c, rest, parts.1, parts.2, rfl, hseparator, hplain, rfl, hsplit, rfl⟩
    · rename_i hcut
      cases hstep : nesting.step c with
      | none =>
        rw [hstep] at h
        exact absurd h (by simp)
      | some next =>
        rw [hstep] at h
        dsimp only at h
        cases hsplit : splitFrom isSeparator next rest with
        | error fault =>
          rw [hsplit] at h
          exact absurd h (by simp [Except.map])
        | ok parts =>
          obtain ⟨first', others'⟩ := parts
          rw [hsplit] at h
          obtain ⟨rfl, rfl⟩ : c :: first' = first ∧ others' = others := by
            simpa [Except.map] using h
          have hpass : ∀ more, pass isSeparator nesting (c :: more) =
              pass isSeparator next more := fun more =>
            pass_cons (by simpa using hcut) hstep
          rcases ih (proper_step hproper hstep) hsplit with ⟨rfl, rfl, hrest⟩ |
            ⟨d, back, second, more, rfl, hd, hplain, hfirst, hback, rfl⟩
          · exact .inl ⟨rfl, rfl, (hpass _).trans hrest⟩
          · exact .inr ⟨d, back, second, more, rfl, hd, hplain, (hpass _).trans hfirst, hback, rfl⟩

theorem checkNesting_eq_ok {text : List Char} : checkNesting text = .ok () ↔ Balanced text := by
  constructor
  · intro h
    rw [checkNesting, splitTop] at h
    cases hsplit : splitFrom noSeparator .top text with
    | error fault =>
      rw [hsplit] at h
      exact absurd h (by simp [Except.map])
    | ok parts =>
      rcases exists_of_splitFrom (fun _ => rfl) hsplit with ⟨-, -, hpass⟩ |
        ⟨c, rest, second, more, -, hseparator, -⟩
      · exact hpass
      · exact absurd hseparator (by simp)
  · intro h
    rw [checkNesting, splitTop_of_pass h]
    rfl

/-! ## Components -/

/-- A comma or a word separator. -/
def isBreak (c : Char) : Bool :=
  c == ',' || isSpace c

/-- Neither commas nor white space cut the text. -/
def Uncut (text : List Char) : Prop :=
  pass isBreak .top text = some .top

variable {text : List Char}

theorem Uncut.comma (h : Uncut text) : pass (· == ',') .top text = some .top :=
  pass_mono (fun c hc => by simp [isBreak, hc]) h

theorem Uncut.space (h : Uncut text) : pass isSpace .top text = some .top :=
  pass_mono (fun c hc => by simp [isBreak, hc]) h

theorem Uncut.balanced (h : Uncut text) : Balanced text :=
  pass_mono (fun _ hc => absurd hc (by simp)) h

theorem uncut_of_isPlain (h : ∀ c ∈ text, isPlain c = true ∧ isBreak c = false) : Uncut text :=
  pass_of_isPlain rfl h

end ComputedCss.Text
