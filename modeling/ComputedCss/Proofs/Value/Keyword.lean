import ComputedCss.Proofs.Style.Deriving
import ComputedCss.Proofs.Text.Words
import ComputedCss.Proofs.Value.Components
import ComputedCss.Proofs.Value.RoundTrip

/-!
# The keyword `inherit`

Whether a value has the keyword `inherit` is seen from its text, which is cut at commas and blanks
wherever they stand. The classifier cuts at commas and white space outside quotes and parentheses.
So the keyword is seen in identifiers, where it is meant, in units, which may go on after a blank
that is no white space of the syntax, and in strings and arguments of functions.

* `InheritAt`: the word stands in a text where the scan has come to a place.
* `inheritAt_top_iff_of_spells`: in a component the word stands at the top level when the component
  says it.
* `hasInherit_iff`: the values that have the keyword.
-/

namespace ComputedCss

open Text Reading

/-! ## The word -/

/-- The word is `inherit`, in any case. -/
def IsInherit (word : List Char) : Prop :=
  caselessEq (String.ofList word) "inherit" = true

/-- A comma or a blank. -/
def isGap (c : Char) : Bool :=
  c == ',' || isBlank c

theorem isInherit_iff {word : List Char} :
    IsInherit word ↔ word.map Char.toLower = ['i', 'n', 'h', 'e', 'r', 'i', 't'] := by
  rw [IsInherit, caselessEq_iff, ← String.toList_inj, toList_toLower, toList_toLower,
    String.toList_ofList]
  rfl

theorem isInherit_map_toLower {word : List Char} :
    IsInherit (word.map Char.toLower) ↔ IsInherit word := by
  rw [isInherit_iff, isInherit_iff, List.map_map]
  have hcomp : Char.toLower ∘ Char.toLower = Char.toLower := funext toLower_toLower
  rw [hcomp]

theorem isGap_toLower (c : Char) : isGap c.toLower = isGap c :=
  toLower_congr isGap (by decide) c

theorem IsInherit.letters {word : List Char} (h : IsInherit word) :
    (∃ c rest, word = c :: rest ∧ c.toLower = 'i') ∧
      ∀ c ∈ word, isGap c = false ∧ isPlain c = true := by
  rw [isInherit_iff] at h
  constructor
  · cases word with
    | nil => exact absurd h (by simp)
    | cons c rest => exact ⟨c, rest, rfl, (List.cons.inj h).1⟩
  · intro c hc
    have hlower : c.toLower ∈ ['i', 'n', 'h', 'e', 'r', 'i', 't'] :=
      h ▸ List.mem_map_of_mem hc
    have hboth : isGap c.toLower = false ∧ isPlain c.toLower = true := by
      simp only [List.mem_cons, List.not_mem_nil, or_false] at hlower
      rcases hlower with h | h | h | h | h | h | h <;> rw [h] <;> decide
    have hplain : isPlain c.toLower = isPlain c := toLower_congr isPlain (by decide) c
    rwa [isGap_toLower, hplain] at hboth

theorem IsInherit.ne_nil {word : List Char} (h : IsInherit word) : word ≠ [] := by
  obtain ⟨⟨c, rest, rfl, -⟩, -⟩ := h.letters
  simp

theorem isGap_eq_isBlank_of_not_isBreak {c : Char} (h : isBreak c = false) :
    isGap c = isBlank c := by
  rw [isBreak, Bool.or_eq_false_iff] at h
  rw [isGap, h.1, Bool.false_or]

theorem isPlain_of_isGap {c : Char} (h : isGap c = true) : isPlain c = true := by
  rcases Bool.or_eq_true_iff.mp h with hcomma | hblank
  · obtain rfl := eq_of_beq hcomma
    decide
  · exact isPlain_of_isBlank hblank

/-! ## Where it stands -/

/-- The word `inherit` stands in the text between commas and blanks, where the scan of the text has
come to a place. -/
def InheritAt (text : List Char) (place : Nesting) : Prop :=
  ∃ front word back, text = front ++ (word ++ back) ∧ IsInherit word ∧
    IsWord isGap front word back ∧ pass noSeparator .top front = some place

variable {place : Nesting}

theorem not_inheritAt_nil : ¬ InheritAt [] place := by
  rintro ⟨front, word, back, htext, hinherit, -, -⟩
  obtain ⟨-, hrest⟩ := List.append_eq_nil_iff.mp htext.symm
  exact hinherit.ne_nil (List.append_eq_nil_iff.mp hrest).1

theorem exists_inheritAt_iff {text : List Char} (h : Balanced text) :
    (∃ place, InheritAt text place) ↔ ∃ word ∈ pieces isGap text, IsInherit word := by
  constructor
  · rintro ⟨place, front, word, back, htext, hinherit, hword, -⟩
    exact ⟨word, mem_pieces_iff.mpr ⟨front, back, htext, hword⟩, hinherit⟩
  · rintro ⟨word, hmem, hinherit⟩
    obtain ⟨front, back, rfl, hword⟩ := mem_pieces_iff.mp hmem
    rw [Text.Balanced, pass_append] at h
    obtain ⟨place, hplace, -⟩ := Option.bind_eq_some_iff.mp h
    exact ⟨place, front, word, back, rfl, hinherit, hword, hplace⟩

/-- **The word stands before a gap of the top level or after it.** -/
theorem inheritAt_append {front rest : List Char} {c : Char} (hfront : Balanced front)
    (hc : isGap c = true) : InheritAt (front ++ c :: rest) place ↔
      InheritAt front place ∨ InheritAt rest place := by
  have hpass : pass noSeparator .top (front ++ [c]) = some .top := by
    rw [pass_append_of_eq hfront, pass_cons (by simp [cuts])
      (step_of_isPlain rfl (isPlain_of_isGap hc))]
    rfl
  constructor
  · -- A word has no gap inside, so it lies on one side of this one.
    rintro ⟨before, word, back, htext, hinherit, hword, hplace⟩
    rcases word_before_or_after hword.word hinherit.ne_nil (by simpa using hc) htext.symm with
      ⟨more, rfl, rfl⟩ | ⟨more, hne, rfl, hrest⟩
    · refine .inl ⟨before, word, more, rfl, hinherit, ⟨hword.word, hword.before, ?_⟩, hplace⟩
      intro d hd
      apply hword.after
      rw [List.head?_append, Option.mem_def.mp hd]
      rfl
    · cases more with
      | nil => exact absurd rfl hne
      | cons d more =>
        obtain ⟨rfl, rfl⟩ := List.cons.inj hrest
        refine .inr ⟨more, word, back, rfl, hinherit, ⟨hword.word, ?_, hword.after⟩, ?_⟩
        · intro e he
          apply hword.before
          rw [List.getLast?_append, List.getLast?_cons, Option.mem_def.mp he]
          rfl
        · rw [← List.singleton_append, ← List.append_assoc, pass_append_of_eq hpass] at hplace
          exact hplace
  · rintro (⟨before, word, back, rfl, hinherit, hword, hplace⟩ |
      ⟨before, word, back, rfl, hinherit, hword, hplace⟩)
    · refine ⟨before, word, back ++ c :: rest, by simp, hinherit,
        ⟨hword.word, hword.before, fun d hd => ?_⟩, hplace⟩
      cases back with
      | nil =>
        obtain rfl : c = d := by simpa using hd
        exact hc
      | cons e back => exact hword.after d hd
    · refine ⟨front ++ c :: before, word, back, by simp, hinherit,
        ⟨hword.word, fun d hd => ?_, hword.after⟩, ?_⟩
      · rw [List.getLast?_append, List.getLast?_cons] at hd
        cases hlast : before.getLast? with
        | none =>
          rw [hlast] at hd
          obtain rfl : c = d := by simpa using hd
          exact hc
        | some e =>
          rw [hlast] at hd
          obtain rfl : e = d := by simpa using hd
          exact hword.before e hlast
      · rw [← List.singleton_append, ← List.append_assoc, pass_append_of_eq hpass]
        exact hplace

theorem inheritAt_append_blanks {text back : List Char} (hback : ∀ c ∈ back, isBlank c = true) :
    InheritAt (text ++ back) place ↔ InheritAt text place := by
  have hgap : ∀ c ∈ back, isGap c = true := fun c hc => by simp [isGap, hback c hc]
  constructor
  · rintro ⟨front, word, rest, htext, hinherit, hword, hplace⟩
    rcases word_before_or_after hword.word hinherit.ne_nil
      (fun c hc => hgap c (List.mem_of_mem_head? hc)) htext.symm with
      ⟨more, rfl, rfl⟩ | ⟨more, -, -, rfl⟩
    · refine ⟨front, word, more, rfl, hinherit, ⟨hword.word, hword.before, ?_⟩, hplace⟩
      intro d hd
      apply hword.after
      rw [List.head?_append, Option.mem_def.mp hd]
      rfl
    · obtain ⟨⟨c, letters, rfl, -⟩, hletters⟩ := hinherit.letters
      have hmem : c ∈ more ++ (c :: letters ++ rest) := by simp
      have htrue := hgap c hmem
      rw [(hletters c List.mem_cons_self).1] at htrue
      exact Bool.noConfusion htrue
  · rintro ⟨front, word, rest, rfl, hinherit, hword, hplace⟩
    refine ⟨front, word, rest ++ back, by simp, hinherit,
      ⟨hword.word, hword.before, fun d hd => ?_⟩, hplace⟩
    cases rest with
    | nil => exact hgap d (List.mem_of_mem_head? hd)
    | cons e rest => exact hword.after d hd

theorem inheritAt_trim (text : List Char) : InheritAt (trim text) place ↔ InheritAt text place := by
  have hdrop : ∀ front rest : List Char, (∀ c ∈ front, isBlank c = true) →
      (InheritAt (front ++ rest) place ↔ InheritAt rest place) := by
    intro front rest hfront
    induction front with
    | nil => rfl
    | cons c front ih =>
      have hc : isGap c = true := by simp [isGap, hfront c List.mem_cons_self]
      have hcons : InheritAt ([] ++ c :: (front ++ rest)) place ↔
          InheritAt [] place ∨ InheritAt (front ++ rest) place := inheritAt_append rfl hc
      rw [List.cons_append]
      exact (hcons.trans (or_iff_right not_inheritAt_nil)).trans
        (ih fun d hd => hfront d (List.mem_cons_of_mem c hd))
  obtain ⟨front, back, htext, hfront, hback⟩ := exists_blanks_around_trim text
  conv_rhs => rw [htext]
  rw [hdrop front _ hfront, inheritAt_append_blanks hback]

theorem inheritAt_splitTop {isSeparator : Char → Bool} {text : List Char} {pieces : List (List Char)}
    (hle : ∀ c, isSeparator c = true → isGap c = true) (h : splitTop isSeparator text = .ok pieces) :
    InheritAt text place ↔ ∃ piece ∈ pieces, InheritAt piece place :=
  exists_mem_splitTop_iff (P := (InheritAt · place))
    (fun _ c _ hfront hc _ => inheritAt_append hfront (hle c hc)) inheritAt_trim h

theorem inheritAt_wordsTop {text : List Char} {words : List (List Char)}
    (h : wordsTop text = .ok words) :
    InheritAt text place ↔ ∃ word ∈ words, InheritAt word place := by
  obtain ⟨parts, hparts, hwords⟩ := exists_splitTop_of_piecesTop h
  rw [inheritAt_splitTop (fun c hc => by simp [isGap, isBlank_of_isSpace hc]) hparts]
  constructor
  · rintro ⟨part, hmem, hpart⟩
    refine ⟨part, (hwords part).mpr ⟨hmem, ?_⟩, hpart⟩
    rintro rfl
    exact not_inheritAt_nil hpart
  · rintro ⟨part, hmem, hpart⟩
    exact ⟨part, ((hwords part).mp hmem).1, hpart⟩

/-! ## Components -/

variable {ν : Type}

/-- The component says the word: it is an identifier with the word in it, or a number whose unit
goes on with the word after a blank. -/
def Primitive.SaysInherit : Primitive ν → Prop
  | .ident name => ∃ word ∈ pieces isBlank name.toList, IsInherit word
  | .numeric _ (.unknownDimension unit) =>
    ∃ word ∈ (pieces isBlank unit.toList).tail, IsInherit word
  | _ => False

theorem eq_nil_of_isWord {front word back : List Char} (hword : IsWord isGap front word back)
    (hfront : ∀ c ∈ front, isGap c = false) : front = [] := by
  by_contra hne
  have hmem := List.getLast?_eq_some_getLast hne
  have htrue := hword.before _ hmem
  rw [hfront _ (List.mem_of_mem_getLast? hmem)] at htrue
  exact Bool.noConfusion htrue

theorem not_inheritAt_string {quote : Char} {body : List Char} (hquote : isQuote quote = true)
    (hbody : QuotedBody quote body) : ¬ InheritAt (quote :: (body ++ [quote])) .top := by
  rintro ⟨front, word, back, htext, hinherit, -, hplace⟩
  cases front with
  | nil =>
    obtain ⟨⟨c, rest, rfl, -⟩, hletters⟩ := hinherit.letters
    obtain ⟨rfl, -⟩ := List.cons.inj htext
    have hplain := (hletters _ List.mem_cons_self).2
    rw [isPlain, hquote] at hplain
    exact Bool.noConfusion hplain
  | cons d front =>
    obtain ⟨rfl, hrest⟩ := List.cons.inj htext
    rw [pass_cons (by simp [cuts]) (step_top_of_isQuote hquote)] at hplace
    rcases List.prefix_concat_iff.mp ⟨_, hrest.symm⟩ with rfl | hprefix
    · have hnil : word ++ back = [] := by simpa using hrest
      exact hinherit.ne_nil (List.append_eq_nil_iff.mp hnil).1
    · have hinside : ∃ escaped, pass noSeparator ⟨some quote, false, 0⟩ front =
          some ⟨some quote, escaped, 0⟩ := hbody.pass_of_prefix hprefix
      obtain ⟨escaped, hpass⟩ := hinside
      exact absurd (hplace.symm.trans hpass) (by simp [Nesting.top])

theorem not_inheritAt_color {digits : List Char} (hdigits : ∀ c ∈ digits, isNumberChar c = true) :
    ¬ InheritAt ('#' :: digits) place := by
  rintro ⟨front, word, back, htext, hinherit, hword, -⟩
  have hgap : ∀ c ∈ '#' :: digits, isGap c = false := by
    intro c hc
    rcases List.mem_cons.mp hc with rfl | hc
    · decide
    · obtain ⟨-, hbreak, hblank⟩ := plain_of_isNumberChar (hdigits c hc)
      exact (isGap_eq_isBlank_of_not_isBreak hbreak).trans hblank
  have hnil : front = [] := eq_nil_of_isWord hword fun c hc =>
    hgap c (htext ▸ List.mem_append_left _ hc)
  subst hnil
  obtain ⟨⟨c, rest, rfl, hc⟩, -⟩ := hinherit.letters
  obtain ⟨rfl, -⟩ := List.cons.inj htext
  exact absurd hc (by decide)

theorem inheritAt_number_iff {front suffix : List Char} (hne : front ≠ [])
    (hfront : ∀ c ∈ front, Numeral.IsTokenChar c)
    (hsuffix : ∀ c ∈ suffix, isPlain c = true) :
    InheritAt (front ++ suffix) .top ↔ ∃ word ∈ (pieces isGap suffix).tail, IsInherit word := by
  have hgap : ∀ c ∈ front, isGap c = false := by
    intro c hc
    obtain ⟨-, hbreak, hblank⟩ := plain_of_isTokenChar (hfront c hc)
    exact (isGap_eq_isBlank_of_not_isBreak hbreak).trans hblank
  have hnotFirst : ∀ c ∈ front, c.toLower ≠ 'i' := by
    intro c hc hlower
    rcases hfront c hc with hdigit | hmem
    · obtain ⟨hlow, hhigh⟩ := code_of_isDigit hdigit
      have hall : ∀ n < 58, (Char.ofNat n).toLower ≠ 'i' := by decide
      exact hall c.toNat (by omega) (by rwa [Char.ofNat_toNat])
    · simp only [List.mem_cons, List.not_mem_nil, or_false] at hmem
      rcases hmem with rfl | rfl | rfl | rfl | rfl <;> exact absurd hlower (by decide)
  constructor
  · rintro ⟨before, word, back, htext, hinherit, hword, -⟩
    rcases List.append_eq_append_iff.mp htext with ⟨more, rfl, hrest⟩ | ⟨more, rfl, hrest⟩
    · refine ⟨word, mem_tail_pieces_iff.mpr ⟨more, back, ?_, hrest, hword.word, fun c hc => ?_,
        hword.after⟩, hinherit⟩
      · rintro rfl
        rw [List.append_nil] at hword
        exact hne (eq_nil_of_isWord hword hgap)
      · apply hword.before
        rw [List.getLast?_append, Option.mem_def.mp hc]
        rfl
    · have hnil : before = [] := eq_nil_of_isWord hword fun c hc =>
        hgap c (List.mem_append_left _ hc)
      subst hnil
      obtain ⟨⟨c, rest, rfl, hc⟩, -⟩ := hinherit.letters
      cases more with
      | nil => exact absurd rfl hne
      | cons d more =>
        obtain ⟨rfl, -⟩ := List.cons.inj hrest
        exact absurd hc (hnotFirst _ (by simp))
  · rintro ⟨word, hmem, hinherit⟩
    obtain ⟨before, back, hbefore, rfl, hword⟩ := mem_tail_pieces_iff.mp hmem
    refine ⟨front ++ before, word, back, by simp, hinherit, ⟨hword.word, ?_, hword.after⟩, ?_⟩
    · intro c hc
      apply hword.before
      rwa [List.getLast?_append_of_ne_nil _ hbefore] at hc
    · apply pass_of_isPlain rfl
      intro c hc
      rcases List.mem_append.mp hc with hc | hc
      · exact ⟨(plain_of_isTokenChar (hfront c hc)).1, rfl⟩
      · exact ⟨hsuffix c (List.mem_append_left _ hc), rfl⟩

theorem isGap_of_ofName? {suffix : List Char} {unit : Dimension}
    (h : Dimension.ofName? (String.ofList suffix) = some unit) : ∀ c ∈ suffix, isGap c = false := by
  have hunit : (unit.name.toList.all fun c => !isGap c) = true := by cases unit <;> decide
  rw [Dimension.ofName?] at h
  have hfound : caselessEq unit.name (String.ofList suffix) = true := by
    simpa using List.find?_some h
  have hlower : suffix.map Char.toLower = unit.name.toList.map Char.toLower := by
    have hname := congrArg String.toList (caselessEq_iff.mp hfound)
    rw [toList_toLower, toList_toLower, String.toList_ofList] at hname
    exact hname.symm
  intro c hc
  have hmem : c.toLower ∈ unit.name.toList.map Char.toLower := hlower ▸ List.mem_map_of_mem hc
  obtain ⟨d, hd, hcd⟩ := List.mem_map.mp hmem
  rw [← isGap_toLower, ← hcd, isGap_toLower]
  simpa using List.all_eq_true.mp hunit d hd

theorem isGap_eq_isBlank_of_isIdent {text : List Char} (h : isIdent text = true) :
    ∀ c ∈ text, isGap c = isBlank c := fun c hc =>
  isGap_eq_isBlank_of_not_isBreak (isBreak_of_isIdentPart (isIdentPart_of_isIdent h c hc))

/-- A unit that is known has no blank, so only a unit that is kept can say the word. -/
theorem saysInherit_readSuffix {suffix : List Char} {noted : Noted ValueType}
    (h : readSuffix suffix = some noted) (x : ν) :
    (Primitive.numeric x noted.value).SaysInherit ↔
      ∃ word ∈ (pieces isGap suffix).tail, IsInherit word := by
  have hnone : (∀ c ∈ suffix, isGap c = false) →
      ¬ ∃ word ∈ (pieces isGap suffix).tail, IsInherit word := by
    intro hgap
    rw [pieces_of_forall hgap]
    simp
  rcases readSuffix_cases h with ⟨rfl, hvalue⟩ | ⟨rfl, hvalue⟩ | ⟨hident, unit, hvalue⟩ |
    ⟨hident, hunknown, hvalue⟩
  · rw [hvalue]
    exact iff_of_false id (hnone (by simp))
  · rw [hvalue]
    refine iff_of_false id (hnone fun c hc => ?_)
    obtain rfl := List.mem_singleton.mp hc
    decide
  · rw [hvalue]
    refine iff_of_false id (hnone ?_)
    obtain ⟨noted', hnoted', hvalue'⟩ := readSuffix_of_isIdent hident
    obtain rfl : noted = noted' := Option.some.inj (h.symm.trans hnoted')
    cases hname : Dimension.ofName? (String.ofList suffix) with
    | some known => exact isGap_of_ofName? hname
    | none =>
      rw [hname, hvalue] at hvalue'
      exact absurd hvalue' (by simp)
  · rw [hvalue]
    show (∃ word ∈ (pieces isBlank (String.ofList suffix).toLower.toList).tail, IsInherit word) ↔ _
    rw [toList_toLower, String.toList_ofList, pieces_map isBlank_toLower, ← List.map_tail,
      pieces_congr (isGap_eq_isBlank_of_isIdent hident)]
    simp only [List.mem_map, exists_exists_and_eq_and, isInherit_map_toLower]

theorem name_of_readCall [Scalar ν] {text name arguments : List Char} {p : Primitive ν}
    (h : result (readCall text name arguments) = .ok p) :
    (∀ c ∈ name, c.toLower ≠ 'i') ∧ ¬ p.SaysInherit := by
  have hknown : ∀ function ∈ ["url", "attr", "counter", "counters", "rect", "rgb", "rgba", "hsl",
      "hsla"], (String.ofList name).toLower = function → ∀ c ∈ name, c.toLower ≠ 'i' := by
    intro function hmem hname c hc hlower
    have hall : ∀ f ∈ ["url", "attr", "counter", "counters", "rect", "rgb", "rgba", "hsl", "hsla"],
        'i' ∉ f.toList := by decide
    apply hall function hmem
    rw [← hname, toList_toLower, String.toList_ofList, ← hlower]
    exact List.mem_map_of_mem hc
  unfold readCall at h
  dsimp only at h
  split_ifs at h with hurl hattr hcounter hcounters hrect
  · obtain rfl := Except.ok.inj h
    exact ⟨hknown _ (by simp) (eq_of_beq hurl), id⟩
  · obtain rfl := Except.ok.inj h
    exact ⟨hknown "attr" (by simp) (eq_of_beq (Bool.and_eq_true_iff.mp hattr).1), id⟩
  · obtain ⟨counter, -, rfl⟩ := result_map_eq_ok.mp h
    exact ⟨hknown "counter" (by simp) (eq_of_beq hcounter), id⟩
  · obtain ⟨counter, -, rfl⟩ := result_map_eq_ok.mp h
    exact ⟨hknown "counters" (by simp) (eq_of_beq hcounters), id⟩
  · obtain ⟨rect, -, rfl⟩ := result_map_eq_ok.mp h
    exact ⟨hknown "rect" (by simp) (eq_of_beq hrect), id⟩
  · split at h
    · rename_i color hcolor
      obtain rfl := Except.ok.inj h
      refine ⟨?_, id⟩
      unfold Color.ofFunction? at hcolor
      rw [string_toLower_toLower] at hcolor
      dsimp only at hcolor
      split_ifs at hcolor with hrgb hhsl
      · rcases Bool.or_eq_true_iff.mp hrgb with hname | hname
        · exact hknown "rgb" (by simp) (eq_of_beq hname)
        · exact hknown "rgba" (by simp) (eq_of_beq hname)
      · rcases Bool.or_eq_true_iff.mp hhsl with hname | hname
        · exact hknown "hsl" (by simp) (eq_of_beq hname)
        · exact hknown "hsla" (by simp) (eq_of_beq hname)
    · simp at h

theorem not_inheritAt_call {name arguments : List Char} (hname : isIdent name = true)
    (hletters : ∀ c ∈ name, c.toLower ≠ 'i') (hbalanced : Balanced arguments) :
    ¬ InheritAt (callText name arguments) .top := by
  rintro ⟨front, word, back, htext, hinherit, -, hplace⟩
  obtain ⟨⟨c, rest, rfl, hc⟩, hword⟩ := hinherit.letters
  have hfirst := (hword c List.mem_cons_self).2
  rw [callText] at htext
  rcases List.append_eq_append_iff.mp htext with ⟨more, rfl, hrest⟩ | ⟨more, rfl, hrest⟩
  · cases more with
    | nil =>
      obtain ⟨rfl, -⟩ := List.cons.inj hrest
      exact absurd hfirst (by decide)
    | cons d more =>
      obtain ⟨rfl, hinside⟩ := List.cons.inj hrest
      have hpart : ∀ d ∈ name, isPlain d = true ∧ noSeparator d = false := fun d hd =>
        ⟨isPlain_of_isIdentPart (isIdentPart_of_isIdent hname d hd), rfl⟩
      have hopen : Nesting.top.step '(' = some (Nesting.top.deepen 1) := rfl
      rw [pass_append_of_eq (pass_of_isPlain rfl hpart), pass_cons (by simp [cuts]) hopen] at hplace
      rcases List.prefix_concat_iff.mp ⟨_, hinside.symm⟩ with rfl | ⟨others, rfl⟩
      · exact absurd hinside (by simp)
      · rw [Text.Balanced, pass_append] at hbalanced
        obtain ⟨next, hnext, -⟩ := Option.bind_eq_some_iff.mp hbalanced
        have hdeeper : pass noSeparator (Nesting.top.deepen 1) more = some (next.deepen 1) :=
          pass_deepen 0 hnext
        have htop : next.deepen 1 = .top := Option.some.inj (hdeeper.symm.trans hplace)
        exact absurd (congrArg Nesting.depth htop) (by simp [Nesting.deepen, Nesting.top])
  · cases more with
    | nil =>
      obtain ⟨rfl, -⟩ := List.cons.inj hrest
      exact absurd hfirst (by decide)
    | cons d more =>
      obtain ⟨rfl, -⟩ := List.cons.inj hrest
      exact absurd hc (hletters _ (by simp))

theorem inheritAt_ident_iff {name : List Char} (h : isIdent name = true) :
    InheritAt name .top ↔ ∃ word ∈ pieces isBlank name, IsInherit word := by
  have hplain : ∀ c ∈ name, isPlain c = true ∧ noSeparator c = false := fun c hc =>
    ⟨isPlain_of_isIdentPart (isIdentPart_of_isIdent h c hc), rfl⟩
  rw [← pieces_congr (isGap_eq_isBlank_of_isIdent h),
    ← exists_inheritAt_iff (uncut_of_isIdent h).balanced]
  constructor
  · exact fun htop => ⟨_, htop⟩
  · rintro ⟨place, front, word, back, rfl, hinherit, hword, hplace⟩
    have hfront : pass noSeparator .top front = some .top :=
      pass_of_isPlain rfl fun c hc => hplain c (List.mem_append_left _ hc)
    exact ⟨front, word, back, rfl, hinherit, hword, hfront⟩

theorem saysInherit_names {names : List (List Char)} (hne : names ≠ []) :
    (Primitive.ident (" ".intercalate (names.map String.ofList)) : Primitive ν).SaysInherit ↔
      ∃ name ∈ names, ∃ word ∈ pieces isBlank name, IsInherit word := by
  rw [Primitive.SaysInherit, toList_names]
  induction names with
  | nil => exact absurd rfl hne
  | cons name names ih =>
    cases names with
    | nil => simp
    | cons next names =>
      rw [List.intercalate_cons_cons, List.append_assoc, List.singleton_append,
        pieces_append_separator (by decide)]
      have hothers := ih (by simp)
      simp only [List.mem_append, or_and_right, exists_or, hothers]
      simp

theorem saysInherit_of_spaces {name : String} {word : List Char}
    (hword : word ∈ pieces (· == ' ') name.toList) (hinherit : IsInherit word) :
    (Primitive.ident name : Primitive ν).SaysInherit := by
  obtain ⟨front, back, htext, -, hbefore, hafter⟩ := mem_pieces_iff.mp hword
  have hblank : ∀ c, (c == ' ') = true → isBlank c = true := by
    intro c hc
    obtain rfl := eq_of_beq hc
    decide
  refine ⟨word, mem_pieces_iff.mpr ⟨front, back, htext, fun c hc => ?_,
    fun c hc => hblank c (hbefore c hc), fun c hc => hblank c (hafter c hc)⟩, hinherit⟩
  have hgap := (hinherit.letters.2 c hc).1
  rw [isGap, Bool.or_eq_false_iff] at hgap
  exact hgap.2

variable [Scalar ν]

/-- **In a component the word stands at the top level when the component says it.** -/
theorem inheritAt_top_iff_of_spells {text : List Char} {p : Primitive ν} (h : Spells text p) :
    InheritAt text .top ↔ p.SaysInherit := by
  cases h with
  | string s hquote hbody => exact iff_of_false (not_inheritAt_string hquote hbody) id
  | color color hdigits => exact iff_of_false (not_inheritAt_color hdigits) id
  | number x hne hfront hsuffix =>
    rw [saysInherit_readSuffix hsuffix]
    exact inheritAt_number_iff hne hfront fun c hc => (plain_of_readSuffix hsuffix c hc).1
  | call hname hbalanced hcall =>
    obtain ⟨hletters, hsilent⟩ := name_of_readCall hcall
    exact iff_of_false (not_inheritAt_call hname hletters hbalanced) hsilent
  | ident hname =>
    rw [inheritAt_ident_iff hname, Primitive.SaysInherit, String.toList_ofList]

/-! ## Values -/

theorem inheritAt_top_iff_of_readPrimitive {text : List Char} {p : Primitive ν}
    (h : result (readPrimitive text) = .ok p) : InheritAt text .top ↔ p.SaysInherit :=
  (inheritAt_trim text).symm.trans (inheritAt_top_iff_of_spells (spells_of_readTrimmed h))

theorem inheritAt_top_iff_of_readListItem {item : List Char} {p : Primitive ν}
    (htrimmed : Trimmed item) (h : result (readListItem item) = .ok p) :
    InheritAt item .top ↔ p.SaysInherit := by
  obtain ⟨hne, words, hwords, ⟨-, h⟩ | ⟨-, hall, rfl⟩⟩ := result_readListItem_eq_ok.mp h
  · exact inheritAt_top_iff_of_readPrimitive h
  · rw [inheritAt_wordsTop hwords,
      saysInherit_names (wordsTop_ne_nil_of_trimmed htrimmed hne hwords)]
    have hwords : ∀ word ∈ words, (InheritAt word .top ↔
        ∃ w ∈ pieces isBlank word, IsInherit w) := fun word hword =>
      inheritAt_ident_iff (hall word hword)
    constructor
    · rintro ⟨word, hword, hinherit⟩
      exact ⟨word, hword, (hwords word hword).mp hinherit⟩
    · rintro ⟨word, hword, hinherit⟩
      exact ⟨word, hword, (hwords word hword).mpr hinherit⟩

theorem exists_iff_of_forall₂ {α β : Type} {R : α → β → Prop} {P : α → Prop} {Q : β → Prop}
    {as : List α} {bs : List β} (h : List.Forall₂ R as bs)
    (hiff : ∀ a ∈ as, ∀ b, R a b → (P a ↔ Q b)) : (∃ a ∈ as, P a) ↔ ∃ b ∈ bs, Q b := by
  induction h with
  | nil => simp
  | @cons a b as bs hab _ ih =>
    simp only [List.mem_cons, exists_eq_or_imp]
    rw [hiff a List.mem_cons_self b hab, ih fun a' ha' => hiff a' (List.mem_cons_of_mem a ha')]

/-- **At the top level of a text that is read the word stands when a component says it.** -/
theorem inheritAt_top_iff_of_parse {text : String} {v : Value ν}
    (h : Value.parse? text = .ok v) :
    InheritAt (trim text.toList) .top ↔ ∃ p ∈ v.items, p.SaysInherit := by
  rcases result_readTrimmedValue_eq_ok h with ⟨pieces, items, hpieces, -, hitems, rfl⟩ |
    ⟨words, items, hwords, -, hitems, rfl⟩ | ⟨p, hread, rfl⟩
  · rw [inheritAt_splitTop (fun c hc => by simp [isGap, eq_of_beq hc]) hpieces]
    exact exists_iff_of_forall₂ hitems fun piece hpiece p hread =>
      inheritAt_top_iff_of_readListItem (trimmed_of_mem_splitTop hpieces hpiece) hread
  · rw [inheritAt_wordsTop hwords]
    exact exists_iff_of_forall₂ hitems fun word _ p hread =>
      inheritAt_top_iff_of_readPrimitive hread
  · rw [inheritAt_top_iff_of_readPrimitive hread]
    simp [Value.items]

theorem balanced_of_parse {text : String} {v : Value ν} (h : Value.parse? text = .ok v) :
    Balanced (trim text.toList) := by
  rcases result_readTrimmedValue_eq_ok h with ⟨pieces, items, hpieces, -⟩ |
    ⟨words, items, hwords, -⟩ | ⟨p, hread, -⟩
  · exact balanced_of_splitTop hpieces
  · obtain ⟨parts, hparts, -⟩ := exists_splitTop_of_piecesTop hwords
    exact balanced_of_splitTop hparts
  · have huncut : Uncut (trim (trim text.toList)) := (spells_of_readTrimmed hread).uncut
    exact balanced_of_trim huncut.balanced

/-! ## The keyword -/

/-- What a text says, as a value that has just been read. -/
def freshValue {Context : Type} (text : String) (v : Value ν) (context : Option Context)
    (config : Config ν) (sheet : Sheet ν) : ComputedValue ν Context × Sheet ν :=
  let added := sheet.add ⟨trimmed text, v⟩
  ComputedValue.ofDeclaration added.1 context config added.2

theorem exists_inheritAt_cases (text : List Char) :
    (∃ place, InheritAt text place) ↔
      InheritAt text .top ∨ ∃ place, place.isTop = false ∧ InheritAt text place := by
  constructor
  · rintro ⟨place, hplace⟩
    cases htop : place.isTop with
    | false => exact .inr ⟨place, htop, hplace⟩
    | true =>
      have hproper : place.Proper := by
        obtain ⟨front, word, back, -, -, -, hpass⟩ := hplace
        exact proper_of_pass (fun _ => rfl) hpass
      exact .inl (eq_top_of_isTop hproper htop ▸ hplace)
  · rintro (htop | ⟨place, -, hplace⟩)
    · exact ⟨_, htop⟩
    · exact ⟨place, hplace⟩

theorem inherits_iff {text : String} {v : Value ν} (h : Value.parse? text = .ok v) :
    (Declaration.mk (trimmed text) v).inherits = true ↔ (∃ p ∈ v.items, p.SaysInherit) ∨
      ∃ place, place.isTop = false ∧ InheritAt (trim text.toList) place := by
  rw [← inheritAt_top_iff_of_parse h, ← exists_inheritAt_cases,
    exists_inheritAt_iff (balanced_of_parse h)]
  unfold Declaration.inherits
  rw [trimmed, String.toList_ofList, List.any_eq_true]
  rfl

/-- **A value that has just been read has the keyword when a component says it, and when the word
stands inside quotes or parentheses.** An identifier with the word between spaces says it. Without
the keyword a derivation resolves the value itself. -/
theorem hasInherit_iff {text : String} {v : Value ν} (h : Value.parse? text = .ok v)
    {Context : Type} (context : Option Context) (config : Config ν) (sheet : Sheet ν) :
    ((freshValue text v context config sheet).1.hasInherit
        (freshValue text v context config sheet).2 = true ↔
      (∃ p ∈ v.items, p.SaysInherit) ∨
        ∃ place, place.isTop = false ∧ InheritAt (trim text.toList) place) ∧
    (∀ name word, .ident name ∈ v.items → word ∈ pieces (· == ' ') name.toList →
      IsInherit word → (freshValue text v context config sheet).1.hasInherit
        (freshValue text v context config sheet).2 = true) ∧
    ∀ (style : Style ν) property, (∀ p ∈ v.items, ¬ p.SaysInherit) →
      (∀ place, place.isTop = false → ¬ InheritAt (trim text.toList) place) →
      (Style.drawn property ⟨trimmed text, v⟩ style sheet).value =
        freshValue text v style.parent style.config sheet := by
  have hfresh : (freshValue text v context config sheet).1.hasInherit
      (freshValue text v context config sheet).2 = (Declaration.mk (trimmed text) v).inherits :=
    hasInherit_ofDeclaration _ context config sheet
  rw [hfresh]
  refine ⟨inherits_iff h, fun name word hname hword hinherit => ?_,
    fun style property hcomponents hplaces => ?_⟩
  · exact (inherits_iff h).mpr (.inl ⟨_, hname, saysInherit_of_spaces hword hinherit⟩)
  · have hnot : ¬ (Declaration.mk (trimmed text) v).inherits = true := by
      rw [inherits_iff h]
      rintro (⟨p, hp, hword⟩ | ⟨place, htop, hplace⟩)
      · exact hcomponents p hp hword
      · exact hplaces place htop hplace
    rw [Style.drawn_eq]
    dsimp only
    rw [if_neg hnot]
    rfl

/-- The keyword in the name of a family of fonts. -/
theorem hasInherit_iff_family :
    ∃ v : Value Float, Value.parse? "Times Inherit , \"serif\"" = .ok v ∧
      .ident "Times Inherit" ∈ v.items ∧
      (freshValue "Times Inherit , \"serif\"" v (none : Option Unit) .standard .empty).1.hasInherit
        (freshValue "Times Inherit , \"serif\"" v (none : Option Unit) .standard .empty).2 = true := by
  have hparse : ∃ v : Value Float, Value.parse? "Times Inherit , \"serif\"" = .ok v ∧
      v.items.head? = some (.ident "Times Inherit") :=
    ⟨_, by with_unfolding_all rfl, by with_unfolding_all rfl⟩
  obtain ⟨v, hv, hhead⟩ := hparse
  have hitem : Primitive.ident "Times Inherit" ∈ v.items := List.mem_of_mem_head? hhead
  refine ⟨v, hv, hitem, (hasInherit_iff hv none .standard .empty).2.1 _ "Inherit".toList hitem ?_ ?_⟩
  · decide
  · unfold IsInherit
    decide +kernel

/-- A string is taken for the keyword. The only component of the value is the string, and a box that
derives it has the value of the page instead. -/
theorem hasInherit_quoted :
    (∃ v : Value Float, Value.parse? "\"do not inherit this\"" = .ok v ∧
      v.items = [.string "do not inherit this"] ∧
      (freshValue "\"do not inherit this\"" v (none : Option Unit) .standard .empty).1.hasInherit
        (freshValue "\"do not inherit this\"" v (none : Option Unit) .standard .empty).2 = true) ∧
    let root := Style.root (.standard : Config Float) .empty
    let page := root.1.derive (.other "content") "red" root.2
    let box := (Style.childOf page.subject).derive (.other "content") "\"do not inherit this\""
      page.sheet
    (box.subject.own? (.other "content")).map (·.text box.sheet) = some "red" :=
  ⟨⟨_, by with_unfolding_all rfl, by with_unfolding_all rfl, by with_unfolding_all rfl⟩,
    by with_unfolding_all rfl⟩

end ComputedCss
