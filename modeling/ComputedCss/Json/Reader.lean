import ComputedCss.Color
import ComputedCss.Json.Number

/-!
# Reading JSON

The reader accepts one value with white space around it. A key may occur twice in an object, and
both members are kept. Half of a surrogate pair is refused in a key and replaced in a string.

* The recursion is bounded by the length of the text, which no nesting exceeds.
-/

namespace ComputedCss.Json

/-- White space between tokens. -/
def isGap (c : Char) : Bool :=
  c == ' ' || c == '\t' || c == '\n' || c == '\r'

/-- Drops white space. -/
def skipGap (text : List Char) : List Char :=
  text.dropWhile isGap

/-- The value of four hexadecimal digits. -/
def codeUnit? (a b c d : Char) : Option Nat := do
  let a ← hexValue? a
  let b ← hexValue? b
  let c ← hexValue? c
  let d ← hexValue? d
  some (((a * 16 + b) * 16 + c) * 16 + d)

/-- The character of a one-letter escape. -/
def escapeLetter? : Char → Option Char
  | '\x22' => some '\x22'
  | '\\' => some '\\'
  | '/' => some '/'
  | 'b' => some '\x08'
  | 'f' => some '\x0C'
  | 'n' => some '\n'
  | 'r' => some '\r'
  | 't' => some '\t'
  | _ => none

/-- The character of two halves of a surrogate pair, if they are such halves. -/
def pair? (high low : Nat) : Option Char :=
  if 0xD800 ≤ high ∧ high < 0xDC00 ∧ 0xDC00 ≤ low ∧ low < 0xE000 then
    some (Char.ofNat (0x10000 + (high - 0xD800) * 0x400 + (low - 0xDC00)))
  else none

/-- Whether a code unit is half of a surrogate pair. -/
def isHalf (unit : Nat) : Bool :=
  0xD800 ≤ unit && unit < 0xE000

/-- What a string is made of: characters, and halves of surrogate pairs written as escapes. -/
inductive Piece where
  | char (c : Char)
  | half (unit : Nat)

/-- The piece that a code unit stands for. -/
def Piece.ofUnit (unit : Nat) : Piece :=
  if isHalf unit then .half unit else .char (Char.ofNat unit)

/-- The pieces up to the closing quote, and the text after it. -/
def readPieces : List Char → Option (List Piece × List Char)
  | [] => none
  | '\x22' :: rest => some ([], rest)
  | '\\' :: 'u' :: a :: b :: c :: d :: rest => do
    let unit ← codeUnit? a b c d
    (readPieces rest).map fun (pieces, rest) => (.ofUnit unit :: pieces, rest)
  | '\\' :: c :: rest => do
    let c ← escapeLetter? c
    (readPieces rest).map fun (pieces, rest) => (.char c :: pieces, rest)
  | c :: rest =>
    if c.toNat < 0x20 || c == '\\' then none
    else (readPieces rest).map fun (pieces, rest) => (.char c :: pieces, rest)

/-- Joins the halves of surrogate pairs. A half without its partner is given to `lone`. -/
def joinHalves (lone : Option Char) : List Piece → Option (List Char)
  | [] => some []
  | .char c :: rest => (joinHalves lone rest).map (c :: ·)
  | .half high :: .half low :: rest =>
    match pair? high low with
    | some c => (joinHalves lone rest).map (c :: ·)
    | none => do
      let c ← lone
      (joinHalves lone (.half low :: rest)).map (c :: ·)
  | .half _ :: rest => do
    let c ← lone
    (joinHalves lone rest).map (c :: ·)
termination_by pieces => pieces.length

/-- The characters up to the closing quote, and the text after it. -/
def readChars (lone : Option Char) (text : List Char) : Option (List Char × List Char) := do
  let (pieces, rest) ← readPieces text
  let chars ← joinHalves lone pieces
  some (chars, rest)

/-- Drops a word from the front of a text. -/
def dropWord? (word : String) (text : List Char) : Option (List Char) :=
  if word.toList.isPrefixOf text then some (text.drop word.toList.length) else none

/-- Reads a word that stands for a value. -/
def readWord (word : String) (value : Json) (text : List Char) : Option (Json × List Char) :=
  (dropWord? word text).map fun rest => (value, rest)

mutual

/-- Reads a value from the front of a text. -/
def readValue : Nat → List Char → Option (Json × List Char)
  | 0, _ => none
  | fuel + 1, text =>
    match skipGap text with
    | [] => none
    | c :: rest =>
      if c == 'n' then readWord "null" .null (c :: rest)
      else if c == 't' then readWord "true" (.bool true) (c :: rest)
      else if c == 'f' then readWord "false" (.bool false) (c :: rest)
      else if c == '\x22' then
        (readChars (some '\ufffd') rest).map fun (cs, rest) => (.string (String.ofList cs), rest)
      else if c == '[' then
        match skipGap rest with
        | ']' :: rest => some (.array [], rest)
        | rest => (readItems fuel rest).map fun (items, rest) => (.array items, rest)
      else if c == '\x7b' then
        match skipGap rest with
        | '\x7d' :: rest => some (.object [], rest)
        | rest => (readMembers fuel rest).map fun (members, rest) => (.object members, rest)
      else readNumber (c :: rest)

/-- Reads the items of an array up to its end. -/
def readItems : Nat → List Char → Option (List Json × List Char)
  | 0, _ => none
  | fuel + 1, text => do
    let (item, rest) ← readValue fuel text
    match skipGap rest with
    | ']' :: rest => some ([item], rest)
    | ',' :: rest =>
      let (items, rest) ← readItems fuel rest
      some (item :: items, rest)
    | _ => none

/-- Reads the members of an object up to its end. -/
def readMembers : Nat → List Char → Option (List (String × Json) × List Char)
  | 0, _ => none
  | fuel + 1, text =>
    match skipGap text with
    | '\x22' :: rest => do
      let (key, rest) ← readChars none rest
      match skipGap rest with
      | ':' :: rest =>
        let (value, rest) ← readValue fuel rest
        let member := (String.ofList key, value)
        match skipGap rest with
        | '\x7d' :: rest => some ([member], rest)
        | ',' :: rest =>
          let (members, rest) ← readMembers fuel rest
          some (member :: members, rest)
        | _ => none
      | _ => none
    | _ => none

end

/-- The JSON value that a whole text writes. -/
def parse? (text : String) : Option Json :=
  let chars := text.toList
  match readValue (2 * chars.length + 2) chars with
  | some (value, rest) => if (skipGap rest).isEmpty then some value else none
  | none => none

end ComputedCss.Json
