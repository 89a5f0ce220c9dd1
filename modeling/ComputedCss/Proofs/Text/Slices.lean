import ComputedCss.Proofs.Text.Splitting

/-!
# Slices of a text in UTF-8

A text that is held as its bytes is cut at byte positions. A cut is taken only at a position in the
text, and only between two characters; a cut of the bytes alone is taken at any position in them.

* `Sliced`: a result, unless a slice on the way to it cannot be taken.
* `cutAt`: the two sides of a position; `exists_cutAt_iff` says where it is defined, in the words of
  the library's own strings.
* `takeTo`, `dropTo`, `slice`: a text up to a position, from a position, and between two.
* `splitTop`: the split of the top level by positions; `splitTop_eq`: its slices can be taken.
* `find?`: the position of the first of some character.
-/

namespace ComputedCss.Slicing

open Text

/-! ## Positions -/

/-- Why a slice cannot be taken. -/
inductive SliceFault where
  | outOfRange
  | insideCharacter
deriving DecidableEq, Repr

/-- A result, unless a slice on the way to it cannot be taken. -/
abbrev Sliced := Except SliceFault

/-- The bytes of a text. -/
def utf8 (text : List Char) : List UInt8 :=
  text.flatMap String.utf8EncodeChar

/-- How many bytes a text has. -/
def byteLength : List Char → Nat
  | [] => 0
  | c :: rest => c.utf8Size + byteLength rest

@[simp] theorem byteLength_nil : byteLength [] = 0 := rfl

@[simp] theorem byteLength_cons (c : Char) (rest : List Char) :
    byteLength (c :: rest) = c.utf8Size + byteLength rest := rfl

@[simp] theorem byteLength_append (front back : List Char) :
    byteLength (front ++ back) = byteLength front + byteLength back := by
  induction front with
  | nil => simp
  | cons c front ih => simp [ih, Nat.add_assoc]

@[simp] theorem utf8_append (front back : List Char) :
    utf8 (front ++ back) = utf8 front ++ utf8 back :=
  List.flatMap_append

theorem length_utf8 (text : List Char) : (utf8 text).length = byteLength text := by
  induction text with
  | nil => rfl
  | cons c rest ih => simp [utf8, ← ih]

theorem utf8ByteSize_ofList (text : List Char) :
    (String.ofList text).utf8ByteSize = byteLength text := by
  induction text with
  | nil => rfl
  | cons c rest ih =>
    rw [← List.singleton_append, String.ofList_append, String.utf8ByteSize_append, ih,
      ← String.singleton_eq_ofList, String.utf8ByteSize_singleton]
    rfl

/-! ## Slices -/

/-- The text before a position and the text after it. -/
def cutAt : List Char → Nat → Sliced (List Char × List Char)
  | text, 0 => pure ([], text)
  | [], _ + 1 => throw .outOfRange
  | c :: rest, n + 1 =>
    if c.utf8Size ≤ n + 1 then
      (fun (front, back) => (c :: front, back)) <$> cutAt rest (n + 1 - c.utf8Size)
    else throw .insideCharacter

/-- The text up to a position. -/
def takeTo (text : List Char) (stop : Nat) : Sliced (List Char) :=
  Prod.fst <$> cutAt text stop

/-- The text from a position on. -/
def dropTo (text : List Char) (start : Nat) : Sliced (List Char) :=
  Prod.snd <$> cutAt text start

/-- The text between two positions. -/
def slice (text : List Char) (start stop : Nat) : Sliced (List Char) := do
  dropTo (← takeTo text stop) start

/-- The bytes from a position on. -/
def bytesFrom (bytes : List UInt8) (start : Nat) : Sliced (List UInt8) :=
  if start ≤ bytes.length then pure (bytes.drop start) else throw .outOfRange

theorem cutAt_append (front back : List Char) :
    cutAt (front ++ back) (byteLength front) = pure (front, back) := by
  induction front with
  | nil =>
    rw [List.nil_append, byteLength_nil, cutAt]
  | cons c front ih =>
    obtain ⟨n, hn⟩ : ∃ n, c.utf8Size + byteLength front = n + 1 :=
      Nat.exists_eq_add_one.mpr (Nat.add_pos_left c.utf8Size_pos _)
    rw [byteLength_cons, hn, List.cons_append, cutAt, if_pos (by omega), ← hn,
      Nat.add_sub_cancel_left, ih]
    rfl

theorem eq_of_cutAt {text front back : List Char} {n : Nat}
    (h : cutAt text n = pure (front, back)) : text = front ++ back ∧ n = byteLength front := by
  induction text generalizing n front with
  | nil =>
    cases n with
    | zero =>
      obtain ⟨rfl, rfl⟩ := Prod.mk.inj (Except.ok.inj h)
      exact ⟨rfl, rfl⟩
    | succ n => exact nomatch h
  | cons c rest ih =>
    cases n with
    | zero =>
      obtain ⟨rfl, rfl⟩ := Prod.mk.inj (Except.ok.inj h)
      exact ⟨rfl, rfl⟩
    | succ n =>
      rw [cutAt] at h
      split_ifs at h with hle
      · cases hrest : cutAt rest (n + 1 - c.utf8Size) with
        | error fault =>
          rw [hrest] at h
          exact nomatch h
        | ok parts =>
          rw [hrest] at h
          obtain ⟨rfl, rfl⟩ := Prod.mk.inj (Except.ok.inj h)
          obtain ⟨htext, hn⟩ := ih hrest
          refine ⟨by rw [htext, List.cons_append], ?_⟩
          rw [byteLength_cons]
          omega
      · exact nomatch h

/-- **A text can be cut exactly at the positions of its characters**, the end included. -/
theorem exists_cutAt_iff {text : List Char} {n : Nat} :
    (∃ parts, cutAt text n = pure parts) ↔ String.Pos.Raw.IsValid (String.ofList text) ⟨n⟩ := by
  rw [String.Pos.Raw.isValid_iff_exists_append]
  constructor
  · rintro ⟨⟨front, back⟩, h⟩
    obtain ⟨rfl, rfl⟩ := eq_of_cutAt h
    refine ⟨String.ofList front, String.ofList back, String.ofList_append, ?_⟩
    rw [String.Pos.Raw.ext_iff, String.byteIdx_rawEndPos, utf8ByteSize_ofList]
  · rintro ⟨front, back, htext, hn⟩
    obtain rfl : text = front.toList ++ back.toList := by
      rw [← String.toList_append, ← htext, String.toList_ofList]
    obtain rfl : n = byteLength front.toList := by
      rw [← utf8ByteSize_ofList, String.ofList_toList]
      exact congrArg String.Pos.Raw.byteIdx hn
    exact ⟨_, cutAt_append _ _⟩

/-- The second byte of a character is no place for a cut. -/
example : cutAt ['é', 'a'] 1 = throw .insideCharacter := rfl

theorem takeTo_append (front back : List Char) :
    takeTo (front ++ back) (byteLength front) = pure front := by
  rw [takeTo, cutAt_append]
  rfl

theorem dropTo_append (front back : List Char) :
    dropTo (front ++ back) (byteLength front) = pure back := by
  rw [dropTo, cutAt_append]
  rfl

theorem slice_append (front middle back : List Char) :
    slice (front ++ (middle ++ back)) (byteLength front) (byteLength (front ++ middle)) =
      pure middle := by
  rw [slice, ← List.append_assoc, takeTo_append, pure_bind, dropTo_append]

theorem bytesFrom_append (front back : List Char) :
    bytesFrom (utf8 (front ++ back)) (byteLength front) = pure (utf8 back) := by
  have hle : byteLength front ≤ (utf8 (front ++ back)).length := by
    rw [length_utf8, byteLength_append]
    exact Nat.le_add_right _ _
  rw [bytesFrom, if_pos hle, utf8_append, ← length_utf8, List.drop_left]

/-! ## Bytes as characters -/

/-- The character that has a byte for its code. -/
def charOfByte (byte : UInt8) : Char :=
  Char.ofNat byte.toNat

/-- A property of ASCII characters only. -/
def IsAscii (p : Char → Bool) : Prop :=
  ∀ c, 128 ≤ c.toNat → p c = false

@[simp] theorem toNat_charOfByte (byte : UInt8) : (charOfByte byte).toNat = byte.toNat := by
  have hvalid : byte.toNat.isValidChar := .inl (Nat.lt_trans byte.toNat_lt (by decide))
  rw [charOfByte, Char.ofNat, dif_pos hvalid]
  rfl

theorem utf8EncodeChar_cases (c : Char) :
    (c.toNat < 128 ∧ ∃ byte, String.utf8EncodeChar c = [byte] ∧ charOfByte byte = c) ∨
    (128 ≤ c.toNat ∧ ∃ byte rest, String.utf8EncodeChar c = byte :: rest ∧ 128 ≤ byte.toNat) := by
  have hlead : ∀ low top, 128 ≤ top → low + top < 256 → 128 ≤ (UInt8.ofNat (low + top)).toNat := by
    intro low top htop hlt
    rw [UInt8.toNat_ofNat', Nat.mod_eq_of_lt hlt]
    exact Nat.le_add_left_of_le htop
  by_cases hascii : c.toNat ≤ 0x7f
  · refine .inl ⟨by omega, UInt8.ofNat c.toNat, if_pos hascii, ?_⟩
    rw [charOfByte, UInt8.toNat_ofNat', Nat.mod_eq_of_lt (by omega), Char.ofNat_toNat]
  · refine .inr ⟨by omega, ?_⟩
    by_cases htwo : c.toNat ≤ 0x7ff
    · exact ⟨_, _, (if_neg hascii).trans (if_pos htwo), hlead _ 0xc0 (by decide) (by omega)⟩
    · by_cases hthree : c.toNat ≤ 0xffff
      · exact ⟨_, _, (if_neg hascii).trans ((if_neg htwo).trans (if_pos hthree)),
          hlead _ 0xe0 (by decide) (by omega)⟩
      · exact ⟨_, _, (if_neg hascii).trans ((if_neg htwo).trans (if_neg hthree)),
          hlead _ 0xf0 (by decide) (by omega)⟩

variable {p : Char → Bool}

theorem length_takeWhile_utf8 (hp : IsAscii p) (text : List Char) :
    ((utf8 text).takeWhile (p ∘ charOfByte)).length = (text.takeWhile p).length := by
  induction text with
  | nil => rfl
  | cons c rest ih =>
    rw [utf8, List.flatMap_cons]
    rcases utf8EncodeChar_cases c with ⟨-, byte, hbyte, hc⟩ | ⟨hc, byte, more, hbyte, hge⟩
    · rw [hbyte, List.singleton_append, List.takeWhile_cons, List.takeWhile_cons,
        Function.comp_apply, hc]
      split_ifs
      · rw [List.length_cons, List.length_cons, ← ih]
        rfl
      · rfl
    · have hlead : (p ∘ charOfByte) byte = false := hp _ (by rwa [toNat_charOfByte])
      rw [hbyte, List.cons_append, List.takeWhile_cons, List.takeWhile_cons, hlead, hp c hc]
      rfl

theorem all_utf8 (hp : IsAscii p) (text : List Char) :
    (utf8 text).all (p ∘ charOfByte) = text.all p := by
  induction text with
  | nil => rfl
  | cons c rest ih =>
    rw [utf8, List.flatMap_cons, List.all_append, List.all_cons, ← ih, utf8]
    rcases utf8EncodeChar_cases c with ⟨-, byte, hbyte, hc⟩ | ⟨hc, byte, more, hbyte, hge⟩
    · rw [hbyte, List.all_cons, List.all_nil, Function.comp_apply, hc, Bool.and_true]
    · have hlead : (p ∘ charOfByte) byte = false := hp _ (by rwa [toNat_charOfByte])
      rw [hbyte, List.all_cons, hlead, hp c hc]
      rfl

/-- Whether the byte at a position is this character. -/
def isAt (bytes : List UInt8) (i : Nat) (c : Char) : Bool :=
  bytes[i]?.map charOfByte == some c

theorem isAt_append {c : Char} (hc : c.toNat < 128) (front back : List Char) :
    isAt (utf8 (front ++ back)) (byteLength front) c = (back.head? == some c) := by
  rw [isAt, utf8_append, ← length_utf8, List.getElem?_append_right le_rfl, Nat.sub_self,
    ← List.head?_eq_getElem?]
  cases back with
  | nil => rfl
  | cons d rest =>
    rw [utf8, List.flatMap_cons, List.head?_cons]
    rcases utf8EncodeChar_cases d with ⟨-, byte, hbyte, hd⟩ | ⟨hd, byte, more, hbyte, hge⟩
    · rw [hbyte, List.singleton_append, List.head?_cons, Option.map_some, hd]
    · have hbyteNe : charOfByte byte ≠ c := by
        rintro rfl
        rw [toNat_charOfByte] at hc
        exact absurd hc (not_lt.mpr hge)
      have hne : d ≠ c := by
        rintro rfl
        exact absurd hc (not_lt.mpr hd)
      rw [hbyte, List.cons_append, List.head?_cons, Option.map_some,
        beq_eq_false_iff_ne.mpr (mt Option.some.inj hbyteNe),
        beq_eq_false_iff_ne.mpr (mt Option.some.inj hne)]

theorem byteLength_of_ascii {text : List Char} (h : ∀ c ∈ text, c.toNat < 128) :
    byteLength text = text.length := by
  induction text with
  | nil => rfl
  | cons c rest ih =>
    have hc : c.utf8Size = 1 := by
      rw [Char.utf8Size_eq_one_iff, UInt32.le_iff_toNat_le]
      exact Nat.le_of_lt_succ (h c List.mem_cons_self)
    rw [byteLength_cons, hc, ih fun d hd => h d (List.mem_cons_of_mem c hd), List.length_cons,
      Nat.add_comm]

theorem toNat_lt_of_isAscii (hp : IsAscii p) {c : Char} (h : p c = true) : c.toNat < 128 := by
  by_contra hge
  rw [hp c (not_lt.mp hge)] at h
  exact Bool.noConfusion h

/-! ## Splitting -/

/-- The split of the top level from a position on, when the last piece began at `start` and the
pieces before it are known. -/
def splitLoop (isSeparator : Char → Bool) (text : List Char) : Nesting → List (List Char) →
    (start position : Nat) → List Char → Sliced (Except Fault (List (List Char)))
  | nesting, pieces, start, _, [] =>
    match nesting.endFault with
    | some fault => pure (.error fault)
    | none => do
      let piece ← dropTo text start
      pure (.ok (pieces ++ [trim piece]))
  | nesting, pieces, start, position, c :: rest =>
    let next := position + c.utf8Size
    if cuts isSeparator nesting c then do
      let piece ← slice text start position
      splitLoop isSeparator text nesting (pieces ++ [trim piece]) next next rest
    else
      match nesting.step c with
      | none => pure (.error .unbalancedParentheses)
      | some nesting => splitLoop isSeparator text nesting pieces start next rest

/-- Cuts a text at every separator of the top level, and trims the pieces. -/
def splitTop (isSeparator : Char → Bool) (text : List Char) :
    Sliced (Except Fault (List (List Char))) :=
  splitLoop isSeparator text .top [] 0 0 text

variable {isSeparator : Char → Bool}

theorem splitLoop_eq (nesting : Nesting) (pieces : List (List Char))
    (front current rest : List Char) :
    splitLoop isSeparator (front ++ (current ++ rest)) nesting pieces (byteLength front)
        (byteLength (front ++ current)) rest =
      pure ((splitFrom isSeparator nesting rest).map fun (first, others) =>
        pieces ++ ((current ++ first) :: others).map trim) := by
  induction rest generalizing nesting pieces front current with
  | nil =>
    rw [splitLoop, splitFrom]
    cases nesting.endFault with
    | some fault => rfl
    | none =>
      dsimp only
      rw [dropTo_append]
      rfl
  | cons c rest ih =>
    have hnext : byteLength (front ++ current) + c.utf8Size =
        byteLength (front ++ (current ++ [c])) := by simp [Nat.add_assoc]
    rw [splitLoop, splitFrom]
    dsimp only
    rw [hnext]
    split_ifs
    · have hcut := ih nesting (pieces ++ [trim current]) (front ++ (current ++ [c])) []
      simp only [List.append_assoc, List.singleton_append, List.append_nil, List.nil_append] at hcut
      rw [slice_append, pure_bind, hcut]
      cases splitFrom isSeparator nesting rest with
      | error fault => rfl
      | ok parts => simp [Except.map]
    · cases nesting.step c with
      | none => rfl
      | some next =>
        have hgo := ih next pieces front (current ++ [c])
        simp only [List.append_assoc, List.singleton_append] at hgo
        dsimp only
        rw [hgo]
        cases splitFrom isSeparator next rest with
        | error fault => rfl
        | ok parts => simp [Except.map]

/-- **Splitting takes no slice that cannot be taken.** -/
theorem splitTop_eq (isSeparator : Char → Bool) (text : List Char) :
    splitTop isSeparator text = pure (Text.splitTop isSeparator text) := by
  rw [splitTop, Text.splitTop]
  exact splitLoop_eq .top [] [] [] text

/-- Whether quotes and parentheses are balanced. -/
def checkNesting (text : List Char) : Sliced (Except Fault Unit) := do
  let pieces ← splitTop (fun _ => false) text
  pure (pieces.map fun _ => ())

/-- Cuts a text at the separators of the top level and drops the empty pieces. -/
def piecesTop (isSeparator : Char → Bool) (text : List Char) :
    Sliced (Except Fault (List (List Char))) := do
  let pieces ← splitTop isSeparator text
  pure (pieces.map (·.filter (!·.isEmpty)))

/-- The words of a text. -/
def wordsTop (text : List Char) : Sliced (Except Fault (List (List Char))) :=
  piecesTop isSpace text

theorem checkNesting_eq (text : List Char) :
    checkNesting text = pure (Text.checkNesting text) := by
  rw [checkNesting, splitTop_eq, pure_bind, Text.checkNesting]

theorem piecesTop_eq (isSeparator : Char → Bool) (text : List Char) :
    piecesTop isSeparator text = pure (Text.piecesTop isSeparator text) := by
  rw [piecesTop, splitTop_eq, pure_bind, Text.piecesTop]

theorem wordsTop_eq (text : List Char) : wordsTop text = pure (Text.wordsTop text) :=
  piecesTop_eq isSpace text

/-! ## Finding -/

/-- The position of the first of these characters. -/
def find? (c : Char) (text : List Char) : Option Nat :=
  if text.contains c then some (byteLength (text.takeWhile (· != c))) else none

theorem eq_append_of_contains {c : Char} {text : List Char} (h : text.contains c = true) :
    text = text.takeWhile (· != c) ++ c :: (text.dropWhile (· != c)).drop 1 := by
  induction text with
  | nil => exact nomatch h
  | cons d rest ih =>
    by_cases hd : d = c
    · subst hd
      simp
    · have hrest : rest.contains c = true := by simpa [Ne.symm hd] using h
      rw [List.takeWhile_cons_of_pos (by simpa using hd),
        List.dropWhile_cons_of_pos (by simpa using hd), List.cons_append, ← ih hrest]

end ComputedCss.Slicing
