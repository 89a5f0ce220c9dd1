import ComputedCss.Text.Nesting
import ComputedCss.Color

/-!
# Tokens of values

Identifiers and quoted strings, as they are written in a value.

* `isIdent` holds of a text that is one identifier.
* `readString` decodes a string that takes up a whole text, quotes included.
-/

namespace ComputedCss

/-! ## Identifiers -/

/-- A character that can start an identifier: a letter, a low line, or anything outside ASCII. -/
def isIdentStart (c : Char) : Bool :=
  c.isAlpha || c == '_' || 0x80 ≤ c.toNat

/-- A character that can continue an identifier. -/
def isIdentPart (c : Char) : Bool :=
  isIdentStart c || c.isDigit || c == '-'

/-- Whether a text is one identifier. One hyphen may come before the first letter, and two hyphens
stand for it. -/
def isIdent : List Char → Bool
  | '-' :: '-' :: rest => rest.all isIdentPart
  | '-' :: c :: rest => isIdentStart c && rest.all isIdentPart
  | c :: rest => isIdentStart c && rest.all isIdentPart
  | [] => false

/-! ## Strings -/

/-- The character of a code point, replaced when there is none or when it is the null character. -/
def charOfCode (code : Nat) : Char :=
  if h : code.isValidChar ∧ code ≠ 0 then Char.ofNatAux code h.1 else '\ufffd'

/-- The character after a complete run of hexadecimal digits, and the text after it: one word
separator after the digits belongs to them. -/
def dropSpace : List Char → List Char
  | c :: rest => if Text.isSpace c then rest else c :: rest
  | [] => []

/-- The value of up to `limit` more hexadecimal digits after a value read so far, and the rest of
the text. -/
def readHex : Nat → Nat → List Char → Nat × List Char
  | limit + 1, code, c :: rest =>
    match hexValue? c with
    | some digit => readHex limit (16 * code + digit) rest
    | none => (code, c :: rest)
  | _, code, rest => (code, rest)

theorem length_dropSpace_le (text : List Char) : (dropSpace text).length ≤ text.length := by
  cases text with
  | nil => simp [dropSpace]
  | cons c rest => simp only [dropSpace]; split <;> simp

theorem length_readHex_le (limit code : Nat) (text : List Char) :
    (readHex limit code text).2.length ≤ text.length := by
  induction limit generalizing code text with
  | zero => simp [readHex]
  | succ limit ih =>
    cases text with
    | nil => simp [readHex]
    | cons c rest =>
      simp only [readHex]
      split
      · exact Nat.le_succ_of_le (ih _ _)
      · simp

/-- What a backslash stands for, given the text after it: up to six hexadecimal digits name a code
point, and any other character stands for itself. -/
def readEscape : List Char → Option (Char × List Char)
  | [] => none
  | c :: rest =>
    match hexValue? c with
    | some digit =>
      let (code, rest) := readHex 5 digit rest
      some (charOfCode code, dropSpace rest)
    | none => some (c, rest)

theorem length_lt_of_readEscape {text rest : List Char} {c : Char}
    (h : readEscape text = some (c, rest)) : rest.length < text.length := by
  cases text with
  | nil => simp [readEscape] at h
  | cons d text =>
    simp only [readEscape] at h
    split at h
    · simp only [Option.some.injEq, Prod.mk.injEq] at h
      rw [← h.2]
      exact Nat.lt_succ_of_le
        (Nat.le_trans (length_dropSpace_le _) (length_readHex_le _ _ _))
    · simp only [Option.some.injEq, Prod.mk.injEq] at h
      rw [← h.2]
      exact Nat.lt_succ_self _

/-- The characters up to the closing quote, and the text after it. -/
def readQuoted (quote : Char) (text : List Char) : Option (List Char × List Char) :=
  match text with
  | [] => none
  | c :: rest =>
    if c == quote then some ([], rest)
    else if c == '\\' then
      match _h : readEscape rest with
      | some (c, rest') => (readQuoted quote rest').map fun (cs, rest) => (c :: cs, rest)
      | none => none
    else (readQuoted quote rest).map fun (cs, rest) => (c :: cs, rest)
termination_by text.length
decreasing_by
  · have := length_lt_of_readEscape _h
    simp only [List.length_cons]
    omega
  · simp

/-- Decodes a string after its opening quote; nothing may follow its closing quote. -/
def readString (quote : Char) (text : List Char) : Except Fault String :=
  match readQuoted quote text with
  | none => .error .unterminatedString
  | some (cs, []) => .ok (String.ofList cs)
  | some _ => .error .textAfterString

/-- The text without one pair of equal quotes around it, or as it is. -/
def unquote (text : List Char) : List Char :=
  match text with
  | quote :: rest =>
    if Text.isQuote quote && rest.getLast? == some quote then rest.dropLast else text
  | [] => []

end ComputedCss
