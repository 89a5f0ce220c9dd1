import ComputedCss.Color.Function
import ComputedCss.Notice
import ComputedCss.Value.Basic
import ComputedCss.Value.Token

/-!
# Reading values

The text of one declaration is classified as a value. Commas of the top level make a list; without
them white space of the top level makes a list; otherwise the text is one component.

* `Primitive.read` classifies one component by its first character.
* `Value.read` classifies a whole text.
* A number in an unknown unit is kept, and a notice says so; nothing else raises a notice.
-/

namespace ComputedCss

variable {ν : Type} [Scalar ν]

/-- The reading of a text: a value or an error, with the notices raised on the way. -/
abbrev Reading (ν α : Type) := ExceptT (ValueError ν) Noted α

namespace Reading

/-- Fails with a fault of a text. -/
def fail {α : Type} (text : List Char) (fault : Fault) : Reading ν α :=
  throw (.unreadable (String.ofList text) fault)

/-- A result whose faults are faults of a text. -/
def ofText {α : Type} (text : List Char) : Except Fault α → Reading ν α
  | .ok a => pure a
  | .error fault => fail text fault

/-- A result as a reading without notices. -/
def ofExcept {α : Type} : Except (ValueError ν) α → Reading ν α
  | .ok a => pure a
  | .error error => throw error

/-- Raises a notice. -/
def tell (notice : Notice) : Reading ν Unit :=
  ExceptT.lift (Noted.tell notice)

end Reading

/-! ## Numbers -/

/-- The type that the text after a number stands for, if it stands for one. An unknown unit is kept
in lower case. -/
def readSuffix (suffix : List Char) : Option (Noted ValueType) :=
  match suffix with
  | [] => some (pure .number)
  | ['%'] => some (pure .percentage)
  | _ =>
    if isIdent suffix then
      let unit := String.ofList suffix
      match Dimension.ofName? unit with
      | some known => some (pure (.dimension known))
      | none => some do
        Noted.tell (.warning ("unknown unit '" ++ unit ++ "' kept as written"))
        pure (.unknownDimension unit.toLower)
    else none

/-- A number with its type, from a text that starts with a number. -/
def readNumeric (text : List Char) : Reading ν (ν × ValueType) :=
  match Numeral.scan text with
  | none => throw (.malformedNumber (String.ofList text))
  | some (numeral, suffix) =>
    match readSuffix suffix with
    | none => throw (.malformedNumber (String.ofList text))
    | some type => do
      let type ← ExceptT.lift type
      pure (Scalar.ofNumeral numeral, type)

/-! ## Functions -/

/-- An argument of `counter()` or `counters()` that has to be an identifier. -/
def readCounterName (text argument : List Char) : Reading ν String :=
  if isIdent argument then pure (String.ofList argument)
  else Reading.fail text .counterArgument

/-- The arguments of `counter()`. -/
def readCounter (text arguments : List Char) : Reading ν Counter := do
  match ← Reading.ofText arguments (Text.splitTop (· == ',') arguments) with
  | [identifier] => do
    let identifier ← readCounterName text identifier
    pure ⟨identifier, none, none⟩
  | [identifier, style] => do
    let identifier ← readCounterName text identifier
    let style ← readCounterName text style
    pure ⟨identifier, some style, none⟩
  | _ => Reading.fail text .counterArity

/-- The separator of `counters()`, which has to be a string. -/
def readCountersSeparator (text argument : List Char) : Reading ν String :=
  match argument with
  | quote :: rest =>
    if Text.isQuote quote then Reading.ofText argument (readString quote rest)
    else Reading.fail text .countersSeparator
  | [] => Reading.fail text .countersSeparator

/-- The arguments of `counters()`. -/
def readCounters (text arguments : List Char) : Reading ν Counter := do
  match ← Reading.ofText arguments (Text.splitTop (· == ',') arguments) with
  | identifier :: separator :: others => do
    let separator ← readCountersSeparator text separator
    let style ← match others with
      | [] => pure none
      | [style] => some <$> readCounterName text style
      | _ => Reading.fail text .countersTooMany
    let identifier ← readCounterName text identifier
    pure ⟨identifier, style, some separator⟩
  | _ => Reading.fail text .countersTooFew

/-- Whether a unitless number counts as no length at all: it is smaller than `2 ^ (-52)`. -/
def isZeroLength (value : ν) : Bool :=
  Scalar.lt (Scalar.abs value) 2.220446049250313080847263336181640625e-16

/-- One offset of `rect()`. -/
def readRectSide (text side : List Char) : Reading ν (RectSide ν) :=
  if Text.caselessEq (String.ofList side) "auto" then pure .auto
  else if startsNumber side then do
    let (value, type) ← readNumeric side
    if type.isAbsoluteLength || type.isRelative then pure (.length value type)
    else if type == .number && isZeroLength value then pure (.length value .px)
    else Reading.fail text .rectOffset
  else Reading.fail text .rectOffset

/-- The arguments of `rect()`. -/
def readRect (text arguments : List Char) : Reading ν (Rect ν) := do
  let isSeparator c := c == ',' || Text.isSpace c
  let sides ← Reading.ofText arguments (Text.piecesTop isSeparator arguments)
  match ← sides.mapM (readRectSide text) with
  | [top, right, bottom, left] => pure ⟨top, right, bottom, left⟩
  | _ => Reading.fail text .rectArity

/-- The text between the parentheses of a call that ends with its closing parenthesis. -/
def callArguments? (afterOpening : List Char) : Option (List Char) :=
  if afterOpening.getLast? == some ')' then some (Text.trim afterOpening.dropLast) else none

/-- A call of a function by its name, from the whole text and the text between the parentheses. -/
def readCall (text name arguments : List Char) : Reading ν (Primitive ν) :=
  let function := (String.ofList name).toLower
  if function == "url" then pure (.uri (String.ofList (unquote arguments)))
  else if function == "attr" && isIdent arguments then pure (.attr (String.ofList arguments))
  else if function == "counter" then .counter <$> readCounter text arguments
  else if function == "counters" then .counter <$> readCounters text arguments
  else if function == "rect" then .rect <$> readRect text arguments
  else match Color.ofFunction? ν function arguments with
    | some color => pure (.color color)
    | none => Reading.fail text .unsupportedFunction

/-- A function call: a name, and arguments between parentheses up to the end of the text. -/
def readFunction (text : List Char) : Reading ν (Primitive ν) := do
  let name := text.takeWhile (· != '(')
  if isIdent name then
    match callArguments? ((text.dropWhile (· != '(')).drop 1) with
    | none => Reading.fail text .unbalancedParentheses
    | some arguments => do
      Reading.ofText arguments (Text.checkNesting arguments)
      readCall text name arguments
  else Reading.fail text .invalidFunctionName

/-! ## Components and lists -/

/-- A hexadecimal colour. -/
def readHexColor (text : List Char) : Reading ν (Primitive ν) :=
  match Color.ofHex? (String.ofList text) with
  | some color => pure (.color color)
  | none => Reading.fail text .invalidHexColor

/-- One component, from a text without blanks at its ends. -/
def readTrimmed (text : List Char) : Reading ν (Primitive ν) :=
  match text with
  | [] => Reading.fail [] .emptyValue
  | c :: rest =>
    if Text.isQuote c then .string <$> Reading.ofText text (readString c rest)
    else if c == '#' then readHexColor text
    else if startsNumber text then do
      let (value, type) ← readNumeric text
      pure (.numeric value type)
    else if text.contains '(' then readFunction text
    else if isIdent text then pure (.ident (String.ofList text))
    else Reading.fail text .unrecognized

/-- One component. -/
def readPrimitive (text : List Char) : Reading ν (Primitive ν) :=
  readTrimmed (Text.trim text)

/-- One item of a list with commas. Several identifiers make one, joined by single spaces, as the
names of font families are written. -/
def readListItem (item : List Char) : Reading ν (Primitive ν) :=
  if item.isEmpty then Reading.fail item .emptyListItem
  else do
    let words ← Reading.ofText item (Text.wordsTop item)
    if words.length == 1 then readPrimitive item
    else if words.all isIdent then
      pure (.ident (" ".intercalate (words.map String.ofList)))
    else Reading.fail item .nestedList

/-- A value, from a text without blanks at its ends. -/
def readTrimmedValue (text : List Char) : Reading ν (Value ν) :=
  if text.isEmpty then Reading.fail text .emptyValue
  else do
    let items ← Reading.ofText text (Text.splitTop (· == ',') text)
    if 1 < items.length then
      let items ← items.mapM readListItem
      pure (.list items .comma)
    else
      let words ← Reading.ofText text (Text.wordsTop text)
      if 1 < words.length then
        let items ← words.mapM readPrimitive
        pure (.list items .space)
      else .single <$> readPrimitive text

/-- Classifies a text as one component. -/
def Primitive.read (text : String) : Reading ν (Primitive ν) :=
  readPrimitive text.toList

/-- Classifies a text as a value. -/
def Value.read (text : String) : Reading ν (Value ν) :=
  readTrimmedValue (Text.trim text.toList)

/-- The value that a text says, if it is one. -/
def Value.parse? (text : String) : Except (ValueError ν) (Value ν) :=
  (Value.read text).run.value

end ComputedCss
