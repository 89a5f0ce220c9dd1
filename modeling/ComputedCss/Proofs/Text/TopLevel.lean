import ComputedCss.Proofs.Text.Quotes
import ComputedCss.Proofs.Text.Words

/-!
# Cuts of the top level

A text is closed when every string and every parenthesis in it is, and when no separator stands
outside them. This is said by a grammar, without a scan. Splitting at the top level cuts a text into
closed parts with one separator between any two, and succeeds for all texts in which strings and
parentheses are closed.

* `Closed`: the grammar; `closed_iff_pass`: the texts that a scan passes without a cut.
* `Cutting`: a text as parts with separators in between.
* `splitTop_eq_ok_iff`: the pieces are the trimmed parts of the exact cutting.
* `splitTop_exact`: what splitting accepts, what it gives, and how it goes with joining.
-/

namespace ComputedCss.Text

variable {isSeparator : Char → Bool}

/-! ## Closed texts -/

/-- Strings and parentheses are closed, and no separator stands outside them. Between parentheses
separators do not count. -/
inductive Closed : (Char → Bool) → List Char → Prop
  | nil {isSeparator : Char → Bool} : Closed isSeparator []
  | plain {isSeparator : Char → Bool} {c : Char} {rest : List Char} : isPlain c = true →
    isSeparator c = false → Closed isSeparator rest → Closed isSeparator (c :: rest)
  | quoted {isSeparator : Char → Bool} {quote : Char} {body rest : List Char} :
    isQuote quote = true → QuotedBody quote body → Closed isSeparator rest →
    Closed isSeparator (quote :: (body ++ quote :: rest))
  | nested {isSeparator : Char → Bool} {inner rest : List Char} : Closed noSeparator inner →
    Closed isSeparator rest → Closed isSeparator ('(' :: (inner ++ ')' :: rest))

theorem Closed.pass {text : List Char} (h : Closed isSeparator text) :
    pass isSeparator .top text = some .top := by
  induction h with
  | nil => rfl
  | plain hplain hseparator _ ih =>
    rw [pass_cons (by simp [cuts, hseparator]) (step_of_isPlain rfl hplain)]
    exact ih
  | quoted hquote hbody _ ih => exact (pass_string hquote hbody 0 _).trans ih
  | nested _ _ hinner hrest =>
    have hopen : Nesting.top.step '(' = some (Nesting.top.deepen 1) := rfl
    have hclose : (Nesting.top.deepen 1).step ')' = some .top := rfl
    rw [pass_cons (by simp [cuts]) hopen, pass_append_of_eq (pass_deepen 0 hinner),
      pass_cons (cuts_deepen _ 0 _) hclose]
    exact hrest

/-- A text that first closes so many parentheses, each after a closed text, and is closed after
that. -/
def Closes (isSeparator : Char → Bool) : Nat → List Char → Prop
  | 0, text => Closed isSeparator text
  | depth + 1, text => ∃ inner rest, text = inner ++ ')' :: rest ∧ Closed noSeparator inner ∧
    Closes isSeparator depth rest

theorem Closes.prepend {depth : Nat} {front text : List Char}
    (hfront : ∀ {isAny : Char → Bool} {rest : List Char}, Closed isAny rest →
      Closed isAny (front ++ rest))
    (h : Closes isSeparator depth text) : Closes isSeparator depth (front ++ text) := by
  cases depth with
  | zero => exact hfront h
  | succ depth =>
    obtain ⟨inner, rest, rfl, hclosed, hrest⟩ := h
    exact ⟨front ++ inner, rest, by simp, hfront hclosed, hrest⟩

theorem Closes.plain {depth : Nat} {c : Char} {text : List Char} (hplain : isPlain c = true)
    (hseparator : depth = 0 → isSeparator c = false) (h : Closes isSeparator depth text) :
    Closes isSeparator depth (c :: text) := by
  cases depth with
  | zero => exact Closed.plain hplain (hseparator rfl) h
  | succ depth =>
    obtain ⟨inner, rest, rfl, hclosed, hrest⟩ := h
    exact ⟨c :: inner, rest, rfl, .plain hplain rfl hclosed, hrest⟩

theorem Closes.quoted {depth : Nat} {quote : Char} {body text : List Char}
    (hquote : isQuote quote = true) (hbody : QuotedBody quote body)
    (h : Closes isSeparator depth text) :
    Closes isSeparator depth (quote :: (body ++ quote :: text)) := by
  have hfront : ∀ rest, quote :: (body ++ [quote]) ++ rest = quote :: (body ++ quote :: rest) := by
    simp
  rw [← hfront]
  apply h.prepend
  intro isAny rest hrest
  rw [hfront]
  exact .quoted hquote hbody hrest

theorem Closes.nested {depth : Nat} {text : List Char} (h : Closes isSeparator (depth + 1) text) :
    Closes isSeparator depth ('(' :: text) := by
  obtain ⟨inner, rest, rfl, hinner, hclosed⟩ := h
  have hfront : ∀ rest, ('(' :: (inner ++ [')'])) ++ rest = '(' :: (inner ++ ')' :: rest) := by
    simp
  rw [← hfront]
  apply hclosed.prepend
  intro isAny rest hrest
  rw [hfront]
  exact .nested hinner hrest

theorem closes_of_pass {depth : Nat} {text : List Char}
    (h : pass isSeparator ⟨none, false, depth⟩ text = some .top) :
    Closes isSeparator depth text := by
  -- The induction is on the length, because a string is passed as a whole.
  induction hlength : text.length using Nat.strong_induction_on generalizing depth text with
  | _ length ih =>
    subst hlength
    cases text with
    | nil =>
      obtain rfl : depth = 0 := congrArg Nesting.depth (Option.some.inj h)
      exact Closed.nil
    | cons c rest =>
      rw [pass] at h
      split at h
      · exact absurd h (by simp)
      · rename_i hcut
        obtain ⟨next, hstep, hrest⟩ := Option.bind_eq_some_iff.mp h
        rw [step_unquoted] at hstep
        split_ifs at hstep with hquote hopen hclose
        · obtain rfl := Option.some.inj hstep
          obtain ⟨body, more, rfl, hbody, hmore⟩ := exists_body_of_pass hrest rfl
          have hshorter : more.length < (c :: (body ++ c :: more)).length := by
            simp only [List.length_cons, List.length_append]
            omega
          exact (ih more.length hshorter hmore rfl).quoted hquote hbody
        · obtain rfl := Option.some.inj hstep
          obtain rfl := eq_of_beq hopen
          exact (ih rest.length (by simp) hrest rfl).nested
        · obtain rfl := eq_of_beq hclose
          cases depth with
          | zero => exact absurd hstep (by simp)
          | succ depth =>
            obtain rfl := Option.some.inj hstep
            exact ⟨[], rest, rfl, .nil, ih rest.length (by simp) hrest rfl⟩
        · obtain rfl := Option.some.inj hstep
          have hplain : isPlain c = true := by simp [isPlain, hquote, hopen, hclose]
          have hseparator : depth = 0 → isSeparator c = false := by
            rintro rfl
            simpa [cuts, Nesting.isTop, hquote, hopen, hclose] using hcut
          exact (ih rest.length (by simp) hrest rfl).plain hplain hseparator

/-- **The closed texts are those that a scan passes without a cut.** -/
theorem closed_iff_pass {text : List Char} :
    Closed isSeparator text ↔ pass isSeparator .top text = some .top :=
  ⟨Closed.pass, closes_of_pass⟩

theorem Closed.isPlain {text : List Char} (h : Closed isSeparator text)
    (hopens : ∀ c ∈ text, isQuote c = false ∧ c ≠ '(') : ∀ c ∈ text, isPlain c = true := by
  induction h with
  | nil => exact fun c hc => absurd hc List.not_mem_nil
  | plain hplain _ _ ih =>
    intro d hd
    rcases List.mem_cons.mp hd with rfl | hd
    · exact hplain
    · exact ih (fun e he => hopens e (List.mem_cons_of_mem _ he)) d hd
  | quoted hquote _ _ _ =>
    have hnot := (hopens _ List.mem_cons_self).1
    rw [hquote] at hnot
    exact Bool.noConfusion hnot
  | nested _ _ _ _ => exact absurd rfl (hopens '(' List.mem_cons_self).2

/-! ## Scanning -/

theorem pass_noSeparator (nesting : Nesting) (text : List Char) :
    pass noSeparator nesting text = text.foldlM Nesting.step nesting := by
  induction text generalizing nesting with
  | nil => rfl
  | cons c rest ih =>
    rw [pass, if_neg (by simp [cuts]), List.foldlM_cons]
    cases nesting.step c with
    | none => rfl
    | some next => exact ih next

theorem closed_iff_scan {text : List Char} :
    Closed noSeparator text ↔
      ∃ nesting, text.foldlM Nesting.step .top = some nesting ∧ nesting.isTop = true := by
  rw [closed_iff_pass, ← pass_noSeparator]
  constructor
  · intro h
    exact ⟨.top, h, rfl⟩
  · rintro ⟨nesting, hpass, htop⟩
    obtain rfl := eq_top_of_isTop (proper_of_pass (fun _ => rfl) hpass) htop
    exact hpass

theorem exists_splitFrom {nesting : Nesting} {text : List Char} (hproper : nesting.Proper)
    (h : pass noSeparator nesting text = some .top) :
    ∃ parts, splitFrom isSeparator nesting text = .ok parts := by
  induction text generalizing nesting with
  | nil =>
    obtain rfl : nesting = .top := Option.some.inj h
    exact ⟨_, rfl⟩
  | cons c rest ih =>
    rw [pass, if_neg (by simp [cuts])] at h
    obtain ⟨next, hstep, hrest⟩ := Option.bind_eq_some_iff.mp h
    obtain ⟨parts, hparts⟩ := ih (proper_step hproper hstep) hrest
    rw [splitFrom]
    split_ifs with hcut
    · simp only [cuts, Bool.and_eq_true] at hcut
      have hsame : nesting.step c = some nesting := by
        rw [eq_top_of_isTop hproper hcut.1.1]
        exact step_of_isPlain rfl hcut.2
      obtain rfl : next = nesting := Option.some.inj (hstep.symm.trans hsame)
      rw [hparts]
      exact ⟨_, rfl⟩
    · rw [hstep]
      dsimp only
      rw [hparts]
      exact ⟨_, rfl⟩

theorem exists_splitTop_iff {text : List Char} :
    (∃ pieces, splitTop isSeparator text = .ok pieces) ↔ Closed noSeparator text := by
  constructor
  · rintro ⟨pieces, h⟩
    exact closed_iff_pass.mpr (balanced_of_splitTop h)
  · intro h
    have hsplit : ∃ parts, splitFrom isSeparator .top text = .ok parts :=
      exists_splitFrom (fun _ => rfl) h.pass
    obtain ⟨parts, hparts⟩ := hsplit
    rw [splitTop, hparts]
    exact ⟨_, rfl⟩

/-! ## Cuttings -/

/-- A text as a first part and further parts, each with the character that stands before it. -/
structure Cutting where
  first : List Char
  others : List (Char × List Char)

namespace Cutting

/-- The text that is cut. -/
def text (cutting : Cutting) : List Char :=
  cutting.first ++ cutting.others.flatMap fun (c, part) => c :: part

/-- The parts in order. -/
def parts (cutting : Cutting) : List (List Char) :=
  cutting.first :: cutting.others.map Prod.snd

/-- The cuts are all the separators outside strings and parentheses. -/
structure IsExact (isSeparator : Char → Bool) (cutting : Cutting) : Prop where
  closed : ∀ part ∈ cutting.parts, Closed isSeparator part
  separates : ∀ cut ∈ cutting.others, isSeparator cut.1 = true

/-- Two texts with a separator in between. -/
def join (front : Cutting) (c : Char) (back : Cutting) : Cutting :=
  ⟨front.first, front.others ++ (c, back.first) :: back.others⟩

variable {front back cutting : Cutting} {c : Char}

theorem text_join : (front.join c back).text = front.text ++ c :: back.text := by
  simp [text, join]

theorem parts_join : (front.join c back).parts = front.parts ++ back.parts := by
  simp [parts, join]

theorem IsExact.join (hfront : front.IsExact isSeparator) (hc : isSeparator c = true)
    (hback : back.IsExact isSeparator) : (front.join c back).IsExact isSeparator := by
  constructor
  · rw [parts_join]
    intro part hpart
    rcases List.mem_append.mp hpart with hpart | hpart
    · exact hfront.closed part hpart
    · exact hback.closed part hpart
  · intro cut hcut
    rcases List.mem_append.mp hcut with hcut | hcut
    · exact hfront.separates cut hcut
    · rcases List.mem_cons.mp hcut with rfl | hcut
      · exact hc
      · exact hback.separates cut hcut

theorem IsExact.splitTop (hplain : ∀ c, isPlain c = false → isSeparator c = false)
    (h : cutting.IsExact isSeparator) :
    splitTop isSeparator cutting.text = .ok (cutting.parts.map trim) := by
  obtain ⟨first, others⟩ := cutting
  induction others generalizing first with
  | nil =>
    have hfirst := (h.closed first List.mem_cons_self).pass
    rw [text, List.flatMap_nil, List.append_nil, splitTop_of_pass hfirst]
    rfl
  | cons cut others ih =>
    obtain ⟨c, part⟩ := cut
    have hfirst := (h.closed first List.mem_cons_self).pass
    have hc : isSeparator c = true := h.separates (c, part) List.mem_cons_self
    have hcplain : (isQuote c || c == '(' || c == ')') = false := by
      by_contra hnot
      have hfalse := hplain c (by simpa [isPlain] using hnot)
      rw [hc] at hfalse
      exact Bool.noConfusion hfalse
    have hrest : IsExact isSeparator ⟨part, others⟩ :=
      ⟨fun p hp => h.closed p (List.mem_cons_of_mem first hp),
        fun d hd => h.separates d (List.mem_cons_of_mem (c, part) hd)⟩
    have htext : text ⟨first, (c, part) :: others⟩ = first ++ c :: text ⟨part, others⟩ := rfl
    rw [htext, splitTop_append_separator hfirst hc hcplain, ih part hrest]
    rfl

end Cutting

theorem exists_cutting_of_splitFrom {text first : List Char} {others : List (List Char)}
    (h : splitFrom isSeparator .top text = .ok (first, others)) :
    ∃ cutting : Cutting, cutting.IsExact isSeparator ∧ cutting.text = text ∧
      cutting.parts = first :: others := by
  induction others generalizing text first with
  | nil =>
    rcases exists_of_splitFrom (fun _ => rfl) h with ⟨rfl, -, hpass⟩ |
      ⟨c, rest, second, more, -, -, -, -, -, heq⟩
    · refine ⟨⟨first, []⟩, ⟨?_, by simp⟩, by simp [Cutting.text], rfl⟩
      intro part hpart
      obtain rfl := List.mem_singleton.mp hpart
      exact closed_iff_pass.mpr hpass
    · exact absurd heq (by simp)
  | cons next others ih =>
    rcases exists_of_splitFrom (fun _ => rfl) h with ⟨-, heq, -⟩ |
      ⟨c, rest, second, more, rfl, hc, -, hfirst, hrest, heq⟩
    · exact absurd heq (by simp)
    · obtain ⟨rfl, rfl⟩ := List.cons.inj heq
      obtain ⟨cutting, hexact, rfl, hparts⟩ := ih hrest
      have hsingle : Cutting.IsExact isSeparator ⟨first, []⟩ := by
        refine ⟨fun part hpart => ?_, by simp⟩
        obtain rfl := List.mem_singleton.mp hpart
        exact closed_iff_pass.mpr hfirst
      refine ⟨.join ⟨first, []⟩ c cutting, hsingle.join hc hexact, ?_, ?_⟩
      · rw [Cutting.text_join]
        simp [Cutting.text]
      · rw [Cutting.parts_join, hparts]
        rfl

/-- **The pieces are the trimmed parts of the exact cutting.** -/
theorem splitTop_eq_ok_iff (hplain : ∀ c, isPlain c = false → isSeparator c = false)
    {text : List Char} {pieces : List (List Char)} :
    splitTop isSeparator text = .ok pieces ↔
      ∃ cutting : Cutting, cutting.IsExact isSeparator ∧ cutting.text = text ∧
        cutting.parts.map trim = pieces := by
  constructor
  · intro h
    obtain ⟨first, others, hsplit, rfl⟩ := exists_splitFrom_of_splitTop h
    obtain ⟨cutting, hexact, htext, hparts⟩ := exists_cutting_of_splitFrom hsplit
    exact ⟨cutting, hexact, htext, hparts ▸ rfl⟩
  · rintro ⟨cutting, hexact, rfl, rfl⟩
    exact hexact.splitTop hplain

/-! ## Pieces on their own -/

theorem isQuote_of_step {nesting next : Nesting} {c quote : Char}
    (hstep : nesting.step c = some next) (hnext : next.quote = some quote) :
    nesting.quote = some quote ∨ isQuote quote = true := by
  obtain ⟨_ | found, _ | _, depth⟩ := nesting
  case some.false =>
    rw [step_quoted] at hstep
    split_ifs at hstep <;> obtain rfl := Option.some.inj hstep
    · exact .inl hnext
    · exact absurd hnext (by simp)
    · exact .inl hnext
  case some.true =>
    rw [step_escaped] at hstep
    obtain rfl := Option.some.inj hstep
    exact .inl hnext
  all_goals
    rw [step_unquoted] at hstep
    split_ifs at hstep with hc
    · obtain rfl := Option.some.inj hstep
      exact .inr (Option.some.inj hnext ▸ hc)
    · obtain rfl := Option.some.inj hstep
      exact absurd hnext (by simp)
    · cases depth with
      | zero => exact absurd hstep (by simp)
      | succ depth =>
        obtain rfl := Option.some.inj hstep
        exact absurd hnext (by simp)
    · obtain rfl := Option.some.inj hstep
      exact absurd hnext (by simp)

theorem isQuote_of_pass {nesting next : Nesting} {text : List Char} {quote : Char}
    (h : pass isSeparator nesting text = some next) (hnext : next.quote = some quote) :
    nesting.quote = some quote ∨ isQuote quote = true := by
  induction text generalizing nesting with
  | nil =>
    obtain rfl := Option.some.inj h
    exact .inl hnext
  | cons c rest ih =>
    rw [pass] at h
    split at h
    · exact absurd h (by simp)
    · obtain ⟨middle, hstep, hrest⟩ := Option.bind_eq_some_iff.mp h
      rcases ih hrest with hmiddle | hquote
      · exact isQuote_of_step hstep hmiddle
      · exact .inr hquote

theorem step_blank {nesting next : Nesting} {c : Char} (hblank : isBlank c = true)
    (hquote : ∀ quote, nesting.quote = some quote → isQuote quote = true)
    (hstep : nesting.step c = some next) :
    next.quote = nesting.quote ∧ next.depth = nesting.depth := by
  have hplain := isPlain_of_isBlank hblank
  obtain ⟨_ | found, _ | _, depth⟩ := nesting
  case some.false =>
    have hfound := hquote found rfl
    have hne : c ≠ found := by
      rintro rfl
      simp [isPlain, hfound] at hplain
    rw [step_quoted, if_neg (show ¬(c == found) = true by simpa using hne)] at hstep
    split_ifs at hstep <;> obtain rfl := Option.some.inj hstep <;> exact ⟨rfl, rfl⟩
  case some.true =>
    obtain rfl := Option.some.inj hstep
    exact ⟨rfl, rfl⟩
  all_goals
    rw [step_of_isPlain rfl hplain] at hstep
    obtain rfl := Option.some.inj hstep
    exact ⟨rfl, rfl⟩

theorem pass_blanks_keeps {nesting next : Nesting} {blanks : List Char}
    (hblanks : ∀ c ∈ blanks, isBlank c = true)
    (hquote : ∀ quote, nesting.quote = some quote → isQuote quote = true)
    (h : pass isSeparator nesting blanks = some next) :
    next.quote = nesting.quote ∧ next.depth = nesting.depth := by
  induction blanks generalizing nesting with
  | nil =>
    obtain rfl := Option.some.inj h
    exact ⟨rfl, rfl⟩
  | cons c rest ih =>
    rw [pass] at h
    split at h
    · exact absurd h (by simp)
    · obtain ⟨middle, hstep, hrest⟩ := Option.bind_eq_some_iff.mp h
      obtain ⟨hsame, hdepth⟩ := step_blank (hblanks c List.mem_cons_self) hquote hstep
      have hrestBlank : ∀ d ∈ rest, isBlank d = true :=
        fun d hd => hblanks d (List.mem_cons_of_mem c hd)
      rw [← hsame] at hquote
      rw [← hsame, ← hdepth]
      exact ih hrestBlank hquote hrest

theorem pass_trim {text : List Char} (h : pass isSeparator .top text = some .top) :
    pass isSeparator .top (trim text) = some .top := by
  obtain ⟨front, back, htext, hfront, hback⟩ := exists_blanks_around_trim text
  rw [htext, pass_append] at h
  obtain ⟨start, hstart, hrest⟩ := Option.bind_eq_some_iff.mp h
  rw [pass_append] at hrest
  obtain ⟨stop, hstop, hend⟩ := Option.bind_eq_some_iff.mp hrest
  have hproper : Nesting.top.Proper := fun _ => rfl
  have hstartTop : start.isTop = true := by
    obtain ⟨hquote, hdepth⟩ := pass_blanks_keeps hfront (by simp [Nesting.top]) hstart
    rw [Nesting.isTop, hquote, hdepth]
    rfl
  obtain rfl := eq_top_of_isTop (proper_of_pass hproper hstart) hstartTop
  have hstopTop : stop.isTop = true := by
    have hquotes : ∀ quote, stop.quote = some quote → isQuote quote = true := by
      intro quote hquote
      exact (isQuote_of_pass hstop hquote).resolve_left (by simp [Nesting.top])
    obtain ⟨hquote, hdepth⟩ := pass_blanks_keeps hback hquotes hend
    rw [Nesting.isTop, ← hquote, ← hdepth]
    rfl
  obtain rfl := eq_top_of_isTop (proper_of_pass hproper hstop) hstopTop
  exact hstop

theorem splitTop_of_mem {text piece : List Char} {pieces : List (List Char)}
    (hplain : ∀ c, isPlain c = false → isSeparator c = false)
    (h : splitTop isSeparator text = .ok pieces) (hpiece : piece ∈ pieces) :
    splitTop isSeparator piece = .ok [piece] := by
  obtain ⟨cutting, hexact, -, rfl⟩ := (splitTop_eq_ok_iff hplain).mp h
  obtain ⟨part, hpart, rfl⟩ := List.mem_map.mp hpiece
  rw [splitTop_of_pass (pass_trim (hexact.closed part hpart).pass),
    trim_eq_self (trimmed_trim part)]

theorem splitTop_join {front back : List Char} {c : Char} {pieces more : List (List Char)}
    (hplain : ∀ c, isPlain c = false → isSeparator c = false)
    (hfront : splitTop isSeparator front = .ok pieces) (hc : isSeparator c = true)
    (hback : splitTop isSeparator back = .ok more) :
    splitTop isSeparator (front ++ c :: back) = .ok (pieces ++ more) := by
  obtain ⟨cutting, hexact, rfl, rfl⟩ := (splitTop_eq_ok_iff hplain).mp hfront
  obtain ⟨other, hother, rfl, rfl⟩ := (splitTop_eq_ok_iff hplain).mp hback
  rw [← Cutting.text_join, (hexact.join hc hother).splitTop hplain, Cutting.parts_join,
    List.map_append]

/-! ## The split of the top level -/

/-- **Splitting is exactly the split of the top level.** When no quote and no parenthesis is a
separator, a text is accepted when it is closed, which a scan tells by ending where it began. The
pieces are the trimmed parts of the cutting at all separators outside strings and parentheses. A
piece is accepted and not cut further, and joining two texts with a separator joins their pieces. -/
theorem splitTop_exact {isSeparator : Char → Bool}
    (hplain : ∀ c, isPlain c = false → isSeparator c = false) :
    (∀ text, (∃ pieces, splitTop isSeparator text = .ok pieces) ↔ Closed noSeparator text) ∧
    (∀ text, Closed noSeparator text ↔
      ∃ nesting, text.foldlM Nesting.step .top = some nesting ∧ nesting.isTop = true) ∧
    (∀ text pieces, splitTop isSeparator text = .ok pieces ↔
      ∃ cutting : Cutting, cutting.IsExact isSeparator ∧ cutting.text = text ∧
        cutting.parts.map trim = pieces) ∧
    (∀ text pieces, splitTop isSeparator text = .ok pieces → ∀ piece ∈ pieces,
      splitTop isSeparator piece = .ok [piece]) ∧
    ∀ front back pieces more c, splitTop isSeparator front = .ok pieces →
      splitTop isSeparator back = .ok more → isSeparator c = true →
      splitTop isSeparator (front ++ c :: back) = .ok (pieces ++ more) := by
  refine ⟨?accepts, ?scan, ?pieces, ?further, ?join⟩
  case accepts => exact fun text => exists_splitTop_iff
  case scan => exact fun text => closed_iff_scan
  case pieces => exact fun text pieces => splitTop_eq_ok_iff hplain
  case further => exact fun text pieces h piece hpiece => splitTop_of_mem hplain h hpiece
  case join =>
    intro front back pieces more c hfront hback hc
    exact splitTop_join hplain hfront hc hback

/-- A comma is neither a quote nor a parenthesis, and two accepted texts are joined with it. -/
theorem splitTop_commas_joined :
    (∀ c, isPlain c = false → (c == ',') = false) ∧
    splitTop (· == ',') " f(a, b) ".toList = .ok ["f(a, b)".toList] ∧
    splitTop (· == ',') "'c,d', e".toList = .ok ["'c,d'".toList, "e".toList] ∧
    splitTop (· == ',') (" f(a, b) ".toList ++ ',' :: "'c,d', e".toList) =
      .ok ["f(a, b)".toList, "'c,d'".toList, "e".toList] := by
  have hplain : ∀ c, isPlain c = false → (c == ',') = false := by
    intro c hc
    by_contra hcomma
    obtain rfl : c = ',' := by simpa using hcomma
    exact absurd hc (by decide)
  have hfront : splitTop (· == ',') " f(a, b) ".toList = .ok ["f(a, b)".toList] := by decide +kernel
  have hback : splitTop (· == ',') "'c,d', e".toList = .ok ["'c,d'".toList, "e".toList] := by
    decide +kernel
  have hall := splitTop_exact hplain
  exact ⟨hplain, hfront, hback, hall.2.2.2.2 _ _ _ _ ',' hfront hback rfl⟩

end ComputedCss.Text
