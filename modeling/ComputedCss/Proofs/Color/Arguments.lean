import ComputedCss.Color.Function
import ComputedCss.Proofs.Number.Longest
import ComputedCss.Proofs.Text.Joining
import ComputedCss.Proofs.Text.TopLevel
import ComputedCss.Proofs.Value.Components

/-!
# The arguments of a colour function

The arguments of a colour function are tokens with something between them. What stands between two
tokens, and around all of them, is any run of commas, slashes and white space. The colour is decided
by the tokens.

* `channelToken`: the grammar of one argument.
* `SetOut`: tokens as they are laid out in a text.
* `piecesTop_of_setOut`: the tokens are found again in every layout.
* `isSome_ofText?_iff`: the arguments that are read are those of the grammar.
* `ofFunction?_setOut`: the colour does not depend on the layout.
-/

namespace ComputedCss

open Text

/-! ## Layouts -/

/-- Tokens in a text, with separators around them and at least one between any two. What stands
behind the last token is the layout of no tokens. -/
inductive SetOut (isSeparator : Char → Bool) : List (List Char) → List Char → Prop
  | none {gap : List Char} : (∀ c ∈ gap, isSeparator c = true) → SetOut isSeparator [] gap
  | last {front token : List Char} : (∀ c ∈ front, isSeparator c = true) →
    SetOut isSeparator [token] (front ++ token)
  | more {front token rest : List Char} {c : Char} {tokens : List (List Char)} :
    (∀ d ∈ front, isSeparator d = true) → isSeparator c = true →
    SetOut isSeparator tokens rest →
    SetOut isSeparator (token :: tokens) (front ++ (token ++ c :: rest))

/-- A token that the separators cannot be part of and that has no blanks at its ends. -/
structure IsToken (isSeparator : Char → Bool) (token : List Char) : Prop where
  ne_nil : token ≠ []
  trimmed : Trimmed token
  closed : Closed isSeparator token

/-- **The tokens are found again in every layout.** -/
theorem piecesTop_of_setOut {isSeparator : Char → Bool}
    (hplain : ∀ c, isSeparator c = true → isPlain c = true) {tokens : List (List Char)}
    {text : List Char} (htokens : ∀ token ∈ tokens, IsToken isSeparator token)
    (h : SetOut isSeparator tokens text) : piecesTop isSeparator text = .ok tokens := by
  have hgap : ∀ {gap}, (∀ c ∈ gap, isSeparator c = true) → ∀ rest,
      piecesTop isSeparator (gap ++ rest) = piecesTop isSeparator rest := fun hgap rest =>
    piecesTop_append_separators rest fun c hc => ⟨hgap c hc, hplain c (hgap c hc)⟩
  induction h with
  | @none gap hseparators =>
    have hempty := hgap hseparators []
    rw [List.append_nil] at hempty
    exact hempty
  | @last front token hfront =>
    have htoken := htokens token List.mem_cons_self
    rw [hgap hfront, piecesTop_of_pass htoken.ne_nil htoken.trimmed htoken.closed.pass]
  | @more front token rest c tokens hfront hc _ ih =>
    have htoken := htokens token List.mem_cons_self
    rw [hgap hfront, piecesTop_append_separator htoken.ne_nil htoken.trimmed htoken.closed.pass hc
      (hplain c hc), ih fun other hother => htokens other (List.mem_cons_of_mem _ hother)]
    rfl

/-! ## Tokens -/

/-- What stands between the arguments of a colour function. -/
def isChannelBreak (c : Char) : Bool :=
  c == ',' || c == '/' || isSpace c

/-- A number, or a number and a percent sign. -/
def channelToken : Language Char := numberToken * (1 + {['%']})

theorem isPlain_of_isChannelBreak {c : Char} (h : isChannelBreak c = true) : isPlain c = true := by
  simp only [isChannelBreak, Bool.or_eq_true] at h
  rcases h with (hc | hc) | hspace
  · obtain rfl := eq_of_beq hc
    decide
  · obtain rfl := eq_of_beq hc
    decide
  · exact isPlain_of_isBlank (isBlank_of_isSpace hspace)

theorem mem_channelToken {token : List Char} :
    token ∈ channelToken ↔ ∃ number ∈ numberToken, token = number ∨ token = number ++ ['%'] := by
  rw [channelToken, Language.mem_mul]
  constructor
  · rintro ⟨number, hnumber, _, rfl | rfl, rfl⟩
    · exact ⟨number, hnumber, .inl (List.append_nil number)⟩
    · exact ⟨number, hnumber, .inr rfl⟩
  · rintro ⟨number, hnumber, rfl | rfl⟩
    · exact ⟨_, hnumber, [], .inl rfl, List.append_nil _⟩
    · exact ⟨number, hnumber, ['%'], .inr rfl, rfl⟩

theorem scan_numberToken {number : List Char} (h : number ∈ numberToken) :
    ∃ numeral, Numeral.scan number = some (numeral, []) := by
  obtain ⟨numeral, rest, hscan, hrest⟩ := Numeral.scan_of_token h []
  rw [List.append_nil] at hscan
  obtain rfl := List.suffix_nil.mp hrest
  exact ⟨numeral, hscan⟩

theorem scan_percentage {number : List Char} (h : number ∈ numberToken) :
    ∃ numeral, Numeral.scan (number ++ ['%']) = some (numeral, ['%']) := by
  obtain ⟨numeral, rest, hscan, hrest⟩ := Numeral.scan_of_token h ['%']
  rcases List.suffix_cons_iff.mp hrest with rfl | hnil
  · exact ⟨numeral, hscan⟩
  · obtain rfl := List.suffix_nil.mp hnil
    -- The scan does not go past the sign, which is in no number token.
    obtain ⟨front, -, htext, hchars⟩ := Numeral.exists_front_of_scan hscan
    rw [List.append_nil] at htext
    have hpercent : Numeral.IsTokenChar '%' := hchars '%' (htext ▸ by simp)
    exact absurd hpercent (by unfold Numeral.IsTokenChar; decide)

theorem chars_of_channelToken {token : List Char} (h : token ∈ channelToken) :
    token ≠ [] ∧ ∀ c ∈ token,
      isPlain c = true ∧ isChannelBreak c = false ∧ isBlank c = false := by
  have hnumber : ∀ {number}, number ∈ numberToken → number ≠ [] ∧ ∀ c ∈ number,
      isPlain c = true ∧ isChannelBreak c = false ∧ isBlank c = false := by
    intro number hmem
    obtain ⟨numeral, hscan⟩ := scan_numberToken hmem
    obtain ⟨front, hne, htext, hchars⟩ := Numeral.exists_front_of_scan hscan
    obtain rfl : number = front := by simpa using htext
    refine ⟨hne, fun c hc => ?_⟩
    obtain ⟨hplain, hbreak, hblank⟩ := plain_of_isTokenChar (hchars c hc)
    have hslash : c ≠ '/' := by
      rintro rfl
      exact absurd (hchars _ hc) (by unfold Numeral.IsTokenChar; decide)
    refine ⟨hplain, ?_, hblank⟩
    simp only [isBreak, Bool.or_eq_false_iff] at hbreak
    simp [isChannelBreak, hbreak, hslash]
  obtain ⟨number, hmem, rfl | rfl⟩ := mem_channelToken.mp h
  · exact hnumber hmem
  · refine ⟨by simp, fun c hc => ?_⟩
    rcases List.mem_append.mp hc with hc | hc
    · exact (hnumber hmem).2 c hc
    · obtain rfl := List.mem_singleton.mp hc
      decide

theorem isToken_of_channelToken {token : List Char} (h : token ∈ channelToken) :
    IsToken isChannelBreak token := by
  obtain ⟨hne, hchars⟩ := chars_of_channelToken h
  exact ⟨hne, trimmed_of_forall fun c hc => (hchars c hc).2.2,
    closed_iff_pass.mpr (pass_of_isPlain rfl fun c hc => ⟨(hchars c hc).1, (hchars c hc).2.1⟩)⟩

/-! ## Channels -/

namespace Channel

variable {ν : Type} [Scalar ν]

/-- **The arguments that are read are those of the grammar.** -/
theorem isSome_ofText?_iff {text : List Char} :
    (ofText? text : Option (Channel ν)).isSome = true ↔ text ∈ channelToken := by
  rw [mem_channelToken]
  constructor
  · intro h
    unfold ofText? at h
    split at h
    · rename_i numeral hscan
      obtain ⟨number, hnumber, rfl, -⟩ := Numeral.exists_token_of_scan hscan
      exact ⟨number, hnumber, .inl (List.append_nil number)⟩
    · rename_i numeral hscan
      obtain ⟨number, hnumber, rfl, -⟩ := Numeral.exists_token_of_scan hscan
      exact ⟨number, hnumber, .inr rfl⟩
    · exact absurd h (by simp)
  · rintro ⟨number, hnumber, rfl | rfl⟩
    · obtain ⟨numeral, hscan⟩ := scan_numberToken hnumber
      rw [ofText?, hscan]
      rfl
    · obtain ⟨numeral, hscan⟩ := scan_percentage hnumber
      rw [ofText?, hscan]
      rfl

theorem list?_eq (arguments : List Char) : (list? arguments : Option (List (Channel ν))) =
    match piecesTop isChannelBreak arguments with
    | .ok pieces => pieces.mapM ofText?
    | .error _ => none := rfl

theorem list?_of_setOut {tokens : List (List Char)} {text : List Char}
    (htokens : ∀ token ∈ tokens, token ∈ channelToken) (h : SetOut isChannelBreak tokens text) :
    (list? text : Option (List (Channel ν))) = tokens.mapM ofText? := by
  rw [list?_eq, piecesTop_of_setOut (fun _ => isPlain_of_isChannelBreak)
    (fun token htoken => isToken_of_channelToken (htokens token htoken)) h]

theorem isSome_mapM_iff {α β : Type} {f : α → Option β} {l : List α} :
    (l.mapM f).isSome = true ↔ ∀ x ∈ l, (f x).isSome = true := by
  induction l with
  | nil => simp
  | cons x l ih =>
    rw [List.mapM_cons, List.forall_mem_cons, ← ih]
    cases f x with
    | none => simp
    | some y => cases l.mapM f <;> simp

theorem length_of_mapM {α β : Type} {f : α → Option β} {l : List α} {ys : List β}
    (h : l.mapM f = some ys) : ys.length = l.length := by
  induction l generalizing ys with
  | nil =>
    obtain rfl : [] = ys := Option.some.inj h
    rfl
  | cons x l ih =>
    rw [List.mapM_cons] at h
    obtain ⟨y, -, h⟩ := Option.bind_eq_some_iff.mp h
    obtain ⟨zs, hzs, h⟩ := Option.bind_eq_some_iff.mp h
    obtain rfl : y :: zs = ys := Option.some.inj h
    rw [List.length_cons, List.length_cons, ih hzs]

theorem ofText?_full : ∃ full : Channel Float, ofText? "100%".toList = some full ∧
    full.toAlphaByte = 255 :=
  ⟨_, rfl, by decide +kernel⟩

end Channel

/-! ## Colours -/

namespace Color

/-- The names of the colour functions. -/
def functionNames : List String := ["rgb", "rgba", "hsl", "hsla"]

section Scalars

variable {ν : Type} [Scalar ν]

theorem exists_make {name : String} (hname : name.toLower ∈ functionNames) :
    ∃ make : Channel ν → Channel ν → Channel ν → UInt8 → Color, ∀ arguments,
      ofFunction? ν name arguments = (Channel.list? arguments).bind (ofChannels? make) := by
  simp only [functionNames, List.mem_cons, List.not_mem_nil, or_false] at hname
  rcases hname with h | h | h | h
  · exact ⟨ofRgb, fun _ => by simp [ofFunction?, h]⟩
  · exact ⟨ofRgb, fun _ => by simp [ofFunction?, h]⟩
  · exact ⟨ofHsl, fun _ => by simp [ofFunction?, h]⟩
  · exact ⟨ofHsl, fun _ => by simp [ofFunction?, h]⟩

theorem isSome_ofChannels?_iff {make : Channel ν → Channel ν → Channel ν → UInt8 → Color}
    {channels : List (Channel ν)} : (ofChannels? make channels).isSome = true ↔
      channels.length = 3 ∨ channels.length = 4 := by
  unfold ofChannels?
  split
  · simp
  · simp
  · rename_i hthree hfour
    refine ⟨fun h => absurd h (by simp), ?_⟩
    rintro (h | h)
    · obtain ⟨x, y, z, rfl⟩ := List.length_eq_three.mp h
      exact absurd rfl (hthree x y z)
    · obtain ⟨x, y, z, alpha, rfl⟩ := List.length_eq_four.mp h
      exact absurd rfl (hfour x y z alpha)

theorem ofFunction?_eq_none {name : String} (hname : name.toLower ∈ functionNames)
    {arguments : List Char} (h : ¬ Closed noSeparator arguments ∨ ∃ cutting : Cutting,
      cutting.IsExact isChannelBreak ∧ cutting.text = arguments ∧
        ∃ part ∈ cutting.parts, trim part ≠ [] ∧ trim part ∉ channelToken) :
    ofFunction? ν name arguments = none := by
  obtain ⟨make, hmake⟩ := exists_make (ν := ν) hname
  have hlist : (Channel.list? arguments : Option (List (Channel ν))) = none := by
    rw [Channel.list?_eq]
    rcases h with hopen | ⟨cutting, hexact, rfl, part, hpart, hne, htoken⟩
    · cases hsplit : piecesTop isChannelBreak arguments with
      | error fault => rfl
      | ok pieces =>
        obtain ⟨parts, hparts, -⟩ := exists_splitTop_of_piecesTop hsplit
        exact absurd (exists_splitTop_iff.mp ⟨parts, hparts⟩) hopen
    · have hplain : ∀ c, isPlain c = false → isChannelBreak c = false := by
        intro c hc
        by_contra hbreak
        rw [isPlain_of_isChannelBreak (by simpa using hbreak)] at hc
        exact Bool.noConfusion hc
      rw [piecesTop, hexact.splitTop hplain]
      dsimp only [Except.map]
      have hmem : trim part ∈ (cutting.parts.map trim).filter (!·.isEmpty) := by
        simpa [hne] using ⟨part, hpart, rfl⟩
      rw [← Option.not_isSome_iff_eq_none, Channel.isSome_mapM_iff]
      exact fun hall => htoken (Channel.isSome_ofText?_iff.mp (hall _ hmem))
  rw [hmake, hlist]
  rfl

end Scalars

/-- **The colour does not depend on the layout.** For the name of a colour function in any case and
any tokens, every layout of the tokens is the same colour. There is a colour exactly when there are
three tokens or four, and three tokens are the colour of the four with a full alpha at the end.
Arguments that are not balanced, or with anything else than tokens between the separators of the top
level, are no colour. -/
theorem ofFunction?_setOut {name : String} (hname : name.toLower ∈ functionNames)
    {tokens : List (List Char)} (htokens : ∀ token ∈ tokens, token ∈ channelToken) :
    (∀ text other, SetOut isChannelBreak tokens text → SetOut isChannelBreak tokens other →
      ofFunction? Float name text = ofFunction? Float name other) ∧
    (∀ text, SetOut isChannelBreak tokens text →
      ((ofFunction? Float name text).isSome = true ↔ tokens.length = 3 ∨ tokens.length = 4)) ∧
    (tokens.length = 3 → ∀ text full, SetOut isChannelBreak tokens text →
      SetOut isChannelBreak (tokens ++ ["100%".toList]) full →
      ofFunction? Float name text = ofFunction? Float name full) ∧
    ∀ arguments, (¬ Closed noSeparator arguments ∨ ∃ cutting : Cutting,
      cutting.IsExact isChannelBreak ∧ cutting.text = arguments ∧
        ∃ part ∈ cutting.parts, trim part ≠ [] ∧ trim part ∉ channelToken) →
      ofFunction? Float name arguments = none := by
  obtain ⟨make, hmake⟩ := exists_make (ν := Float) hname
  have hread : ∀ text, SetOut isChannelBreak tokens text →
      ofFunction? Float name text = (tokens.mapM Channel.ofText?).bind (ofChannels? make) :=
    fun text htext => by rw [hmake, Channel.list?_of_setOut htokens htext]
  have hsome : (tokens.mapM (Channel.ofText? (ν := Float))).isSome = true :=
    Channel.isSome_mapM_iff.mpr fun token htoken =>
      Channel.isSome_ofText?_iff.mpr (htokens token htoken)
  obtain ⟨channels, hchannels⟩ := Option.isSome_iff_exists.mp hsome
  have hlength := Channel.length_of_mapM hchannels
  refine ⟨?layout, ?count, ?full, fun arguments h => ofFunction?_eq_none hname h⟩
  case layout =>
    intro text other htext hother
    rw [hread text htext, hread other hother]
  case count =>
    intro text htext
    rw [hread text htext, hchannels, ← hlength]
    exact isSome_ofChannels?_iff
  case full =>
    intro hthree text other htext hother
    obtain ⟨full, hfull, hbyte⟩ := Channel.ofText?_full
    have htoken : "100%".toList ∈ channelToken :=
      Channel.isSome_ofText?_iff.mp (by rw [hfull]; rfl)
    have hall : ∀ token ∈ tokens ++ ["100%".toList], token ∈ channelToken := by
      intro token hmem
      rcases List.mem_append.mp hmem with hmem | hmem
      · exact htokens token hmem
      · exact List.mem_singleton.mp hmem ▸ htoken
    obtain ⟨x, y, z, rfl⟩ := List.length_eq_three.mp (hlength.trans hthree)
    rw [hread text htext, hmake, Channel.list?_of_setOut hall hother, List.mapM_append, hchannels]
    simp only [List.mapM_cons, hfull]
    show some (make x y z 255) = some (make x y z full.toAlphaByte)
    rw [hbyte]

/-- Commas in one layout, white space and a slash in the other. -/
theorem ofFunction?_setOut_red :
    "RGB".toLower ∈ functionNames ∧
    (∀ token ∈ ["255".toList, "0%".toList, "0".toList], token ∈ channelToken) ∧
    SetOut isChannelBreak ["255".toList, "0%".toList, "0".toList] "255,0%, 0".toList ∧
    SetOut isChannelBreak ["255".toList, "0%".toList, "0".toList] " 255 0% / 0".toList ∧
    ofFunction? Float "RGB" "255,0%, 0".toList = ofFunction? Float "RGB" " 255 0% / 0".toList := by
  have hname : "RGB".toLower ∈ functionNames := by decide +kernel
  have htokens : ∀ token ∈ ["255".toList, "0%".toList, "0".toList], token ∈ channelToken :=
    fun token hmem => (Channel.isSome_ofText?_iff (ν := Float)).mp (by
      revert token
      decide +kernel)
  have hspace : ∀ c ∈ [' '], isChannelBreak c = true := List.all_eq_true.mp (by decide)
  have hbreaks : ∀ c ∈ ['/', ' '], isChannelBreak c = true := List.all_eq_true.mp (by decide)
  have hcommas : SetOut isChannelBreak ["255".toList, "0%".toList, "0".toList]
      "255,0%, 0".toList :=
    @SetOut.more _ [] _ "0%, 0".toList _ _ (by simp) rfl
      (@SetOut.more _ [] _ " 0".toList _ _ (by simp) rfl (@SetOut.last _ [' '] _ hspace))
  have hslash : SetOut isChannelBreak ["255".toList, "0%".toList, "0".toList]
      " 255 0% / 0".toList :=
    @SetOut.more _ [' '] _ "0% / 0".toList _ _ hspace rfl
      (@SetOut.more _ [] _ "/ 0".toList _ _ (by simp) rfl (@SetOut.last _ ['/', ' '] _ hbreaks))
  exact ⟨hname, htokens, hcommas, hslash,
    (ofFunction?_setOut hname htokens).1 _ _ hcommas hslash⟩

end Color

end ComputedCss
