import ComputedCss.Proofs.Text.Splitting

/-!
# Quotes

A scan that has met a quote stays between quotes until it meets the same quote again without a
backslash before it.

* `QuotedBody`: what may stand between two quotes.
* `QuotedBody.pass`: it is passed without a cut.
* `pass_string`: a string in its quotes leaves the scan where it was.
* `exists_body_of_pass`: a scan that gets out of a string has passed such a text and the closing
  quote.
-/

namespace ComputedCss

variable {isSeparator : Char → Bool}

/-- What may stand between two quotes: the quote itself only after a backslash. -/
inductive QuotedBody (quote : Char) : List Char → Prop
  | nil : QuotedBody quote []
  | plain {c : Char} {rest : List Char} : c ≠ quote → c ≠ '\\' → QuotedBody quote rest →
    QuotedBody quote (c :: rest)
  | escaped (c : Char) {rest : List Char} : QuotedBody quote rest →
    QuotedBody quote ('\\' :: c :: rest)

theorem QuotedBody.append_plain {quote : Char} {front rest : List Char}
    (hfront : ∀ c ∈ front, c ≠ quote ∧ c ≠ '\\') (hrest : QuotedBody quote rest) :
    QuotedBody quote (front ++ rest) := by
  induction front with
  | nil => exact hrest
  | cons c front ih =>
    obtain ⟨hquote, hescape⟩ := hfront c List.mem_cons_self
    exact .plain hquote hescape (ih fun d hd => hfront d (List.mem_cons_of_mem c hd))

/-! ## One character -/

theorem cuts_quoted (quote : Char) (escaped : Bool) (depth : Nat) (c : Char) :
    Text.cuts isSeparator ⟨some quote, escaped, depth⟩ c = false := rfl

theorem ne_backslash_of_isQuote {quote : Char} (h : Text.isQuote quote = true) : quote ≠ '\\' := by
  rintro rfl
  exact absurd h (by decide)

theorem step_top_of_isQuote {quote : Char} (hquote : Text.isQuote quote = true) :
    Text.Nesting.top.step quote = some ⟨some quote, false, 0⟩ := by
  rw [Text.Nesting.top, Text.step_unquoted, if_pos hquote]

theorem step_unprotected {quote c : Char} (hquote : c ≠ quote) (hescape : c ≠ '\\') (depth : Nat) :
    Text.Nesting.step ⟨some quote, false, depth⟩ c = some ⟨some quote, false, depth⟩ := by
  rw [Text.step_quoted, if_neg (by simpa using hescape), if_neg (by simpa using hquote)]

theorem pass_escape {quote : Char} {depth : Nat} (c : Char) (rest : List Char) :
    Text.pass isSeparator ⟨some quote, false, depth⟩ ('\\' :: c :: rest) =
      Text.pass isSeparator ⟨some quote, false, depth⟩ rest := by
  rw [Text.pass_cons (cuts_quoted _ _ _ _) (Text.step_quoted quote depth '\\'),
    Text.pass_cons (cuts_quoted _ _ _ _) (Text.step_escaped quote depth c)]

/-! ## Between two quotes -/

theorem QuotedBody.pass_of_prefix {quote : Char} {body front : List Char} {depth : Nat}
    (h : QuotedBody quote body) (hfront : front <+: body) :
    ∃ escaped, Text.pass isSeparator ⟨some quote, false, depth⟩ front =
      some ⟨some quote, escaped, depth⟩ := by
  induction h generalizing front with
  | nil =>
    obtain rfl := List.prefix_nil.mp hfront
    exact ⟨false, rfl⟩
  | @plain c rest hquote hescape _ ih =>
    rcases List.prefix_cons_iff.mp hfront with rfl | ⟨front, rfl, hrest⟩
    · exact ⟨false, rfl⟩
    · rw [Text.pass_cons (cuts_quoted _ _ _ _) (step_unprotected hquote hescape depth)]
      exact ih hrest
  | @escaped c rest _ ih =>
    rcases List.prefix_cons_iff.mp hfront with rfl | ⟨back, rfl, hback⟩
    · exact ⟨false, rfl⟩
    · rcases List.prefix_cons_iff.mp hback with rfl | ⟨more, rfl, hmore⟩
      · exact ⟨true, rfl⟩
      · rw [pass_escape]
        exact ih hmore

theorem QuotedBody.pass {quote : Char} {body : List Char} {depth : Nat}
    (h : QuotedBody quote body) :
    Text.pass isSeparator ⟨some quote, false, depth⟩ body = some ⟨some quote, false, depth⟩ := by
  induction h with
  | nil => rfl
  | @plain c rest hquote hescape _ ih =>
    rw [Text.pass_cons (cuts_quoted _ _ _ _) (step_unprotected hquote hescape depth)]
    exact ih
  | escaped c _ ih =>
    rw [pass_escape]
    exact ih

theorem step_close {quote : Char} (hescape : quote ≠ '\\') (depth : Nat) :
    Text.Nesting.step ⟨some quote, false, depth⟩ quote = some ⟨none, false, depth⟩ := by
  rw [Text.step_quoted, if_neg (by simpa using hescape), if_pos (by simp)]

theorem pass_string {quote : Char} {body : List Char} (hquote : Text.isQuote quote = true)
    (hbody : QuotedBody quote body) (depth : Nat) (rest : List Char) :
    Text.pass isSeparator ⟨none, false, depth⟩ (quote :: (body ++ quote :: rest)) =
      Text.pass isSeparator ⟨none, false, depth⟩ rest := by
  have hopen : Text.Nesting.step ⟨none, false, depth⟩ quote = some ⟨some quote, false, depth⟩ := by
    rw [Text.step_unquoted, if_pos hquote]
  rw [Text.pass_cons (by simp [Text.cuts, hquote]) hopen, Text.pass_append_of_eq hbody.pass,
    Text.pass_cons (cuts_quoted _ _ _ _) (step_close (ne_backslash_of_isQuote hquote) depth)]

/-- A scan that gets out of a string has passed what may stand between two quotes, and the closing
quote. -/
theorem exists_body_of_pass {quote : Char} {depth : Nat} {text : List Char} {next : Text.Nesting}
    (h : Text.pass isSeparator ⟨some quote, false, depth⟩ text = some next)
    (hnext : next.quote = none) :
    ∃ body rest, text = body ++ quote :: rest ∧ QuotedBody quote body ∧
      Text.pass isSeparator ⟨none, false, depth⟩ rest = some next := by
  -- The induction is on the length, because a backslash takes the next character with it.
  induction hlength : text.length using Nat.strong_induction_on generalizing text with
  | _ length ih =>
    subst hlength
    cases text with
    | nil =>
      obtain rfl := Option.some.inj h
      exact absurd hnext (by simp)
    | cons c rest =>
      by_cases hescape : c = '\\'
      · subst hescape
        cases rest with
        | nil =>
          obtain rfl := Option.some.inj h
          exact absurd hnext (by simp)
        | cons d rest =>
          rw [pass_escape] at h
          have hshorter : rest.length < ('\\' :: d :: rest).length := by
            simp only [List.length_cons]
            omega
          obtain ⟨body, more, rfl, hbody, hmore⟩ := ih rest.length hshorter h rfl
          exact ⟨'\\' :: d :: body, more, rfl, .escaped d hbody, hmore⟩
      · by_cases hquote : c = quote
        · subst hquote
          rw [Text.pass_cons (cuts_quoted _ _ _ _) (step_close hescape depth)] at h
          exact ⟨[], rest, rfl, .nil, h⟩
        · rw [Text.pass_cons (cuts_quoted _ _ _ _) (step_unprotected hquote hescape depth)] at h
          obtain ⟨body, more, rfl, hbody, hmore⟩ := ih rest.length (by simp) h rfl
          exact ⟨c :: body, more, rfl, .plain hquote hescape hbody, hmore⟩

end ComputedCss
