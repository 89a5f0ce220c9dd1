import ComputedCss.Proofs.Number.Slices
import ComputedCss.Proofs.Value.TokenSlices
import ComputedCss.Value.Classifier

/-!
# Reading values by positions

The classifier over texts that are held as their bytes, where every cut of a text is a slice. Each
of its functions reads what the function without positions reads.

* `SlicedReading`: a reading, unless a slice on the way to it cannot be taken.
* `ofFunction?`: the colour functions.
* `readComponent`, `readValue`: the classifier of components and of values.
* `slices_in_range`: every slice can be taken.
-/

namespace ComputedCss.Slicing

variable {ν α β : Type}

/-! ## Readings -/

/-- A reading, unless a slice on the way to it cannot be taken. -/
abbrev SlicedReading (ν α : Type) := ExceptT SliceFault (Reading ν) α

/-- A reading that takes no slice. -/
def ofReading (reading : Reading ν α) : SlicedReading ν α :=
  ExceptT.lift reading

/-- Fails with a fault of a text. -/
def fail (text : List Char) (fault : Fault) : SlicedReading ν α :=
  ofReading (Reading.fail text fault)

/-- A result by slices whose faults are faults of a text. -/
def ofText (text : List Char) (found : Sliced (Except Fault α)) : SlicedReading ν α := do
  ofReading (Reading.ofText text (← found))

theorem ofText_pure (text : List Char) (found : Except Fault α) :
    (ofText text (pure found) : SlicedReading ν α) = ofReading (Reading.ofText text found) :=
  rfl

theorem bind_ofReading {reading : Reading ν α} {f : α → SlicedReading ν β} {g : α → Reading ν β}
    (h : ∀ a, f a = ofReading (g a)) : (ofReading reading >>= f) = ofReading (reading >>= g) := by
  rw [funext h]
  exact (liftM_bind reading g).symm

theorem map_ofReading (f : α → β) (reading : Reading ν α) :
    f <$> (ofReading reading : SlicedReading ν α) = ofReading (f <$> reading) :=
  (liftM_map f reading).symm

theorem mapM_ofReading {f : α → SlicedReading ν β} {g : α → Reading ν β}
    (h : ∀ a, f a = ofReading (g a)) (items : List α) :
    items.mapM f = ofReading (items.mapM g) := by
  induction items with
  | nil => rfl
  | cons item items ih =>
    rw [List.mapM_cons, List.mapM_cons, h, ih]
    exact bind_ofReading fun _ => bind_ofReading fun _ => rfl

theorem mapM_pure_option (f : α → Option β) (items : List α) :
    (items.mapM fun item => OptionT.mk (pure (f item)) : OptionT Sliced (List β)) =
      OptionT.mk (pure (items.mapM f)) := by
  induction items with
  | nil => rfl
  | cons item items ih =>
    rw [List.mapM_cons, List.mapM_cons, ih]
    cases f item with
    | none => rfl
    | some found => cases items.mapM f <;> rfl

/-! ## Hexadecimal colours and counters -/

/-- A hexadecimal colour. -/
def readHexColor (text : List Char) : SlicedReading ν (Primitive ν) := do
  match ← ofHex? (String.ofList text) with
  | some color => pure (.color color)
  | none => fail text .invalidHexColor

/-- The arguments of `counter()`. -/
def readCounter (text arguments : List Char) : SlicedReading ν Counter := do
  match ← ofText arguments (splitTop (· == ',') arguments) with
  | [identifier] => do
    let identifier ← ofReading (readCounterName text identifier)
    pure ⟨identifier, none, none⟩
  | [identifier, style] => do
    let identifier ← ofReading (readCounterName text identifier)
    let style ← ofReading (readCounterName text style)
    pure ⟨identifier, some style, none⟩
  | _ => fail text .counterArity

/-- The separator of `counters()`, which has to be a string. -/
def readCountersSeparator (text argument : List Char) : SlicedReading ν String :=
  match argument with
  | quote :: _ =>
    if Text.isQuote quote then ofText argument (readString quote argument)
    else fail text .countersSeparator
  | [] => fail text .countersSeparator

/-- The arguments of `counters()`. -/
def readCounters (text arguments : List Char) : SlicedReading ν Counter := do
  match ← ofText arguments (splitTop (· == ',') arguments) with
  | identifier :: separator :: others => do
    let separator ← readCountersSeparator text separator
    let style ← match others with
      | [] => pure none
      | [style] => some <$> ofReading (readCounterName text style)
      | _ => fail text .countersTooMany
    let identifier ← ofReading (readCounterName text identifier)
    pure ⟨identifier, style, some separator⟩
  | _ => fail text .countersTooFew

theorem readHexColor_eq (text : List Char) :
    (readHexColor text : SlicedReading ν (Primitive ν)) =
      ofReading (ComputedCss.readHexColor text) := by
  rw [readHexColor, ofHex?_eq, liftM_pure, pure_bind, ComputedCss.readHexColor]
  cases Color.ofHex? (String.ofList text) <;> rfl

theorem readCounter_eq (text arguments : List Char) :
    (readCounter text arguments : SlicedReading ν Counter) =
      ofReading (ComputedCss.readCounter text arguments) := by
  rw [readCounter, splitTop_eq, ofText_pure, ComputedCss.readCounter]
  refine bind_ofReading fun pieces => ?_
  match pieces with
  | [identifier] => exact bind_ofReading fun _ => rfl
  | [identifier, style] => exact bind_ofReading fun _ => bind_ofReading fun _ => rfl
  | [] | _ :: _ :: _ :: _ => rfl

theorem readCountersSeparator_eq (text argument : List Char) :
    (readCountersSeparator text argument : SlicedReading ν String) =
      ofReading (ComputedCss.readCountersSeparator text argument) := by
  cases argument with
  | nil => rfl
  | cons quote rest =>
    rw [readCountersSeparator, readString_eq, ofText_pure, ComputedCss.readCountersSeparator]
    split_ifs <;> rfl

theorem readCounters_eq (text arguments : List Char) :
    (readCounters text arguments : SlicedReading ν Counter) =
      ofReading (ComputedCss.readCounters text arguments) := by
  rw [readCounters, splitTop_eq, ofText_pure, ComputedCss.readCounters]
  refine bind_ofReading fun pieces => ?_
  match pieces with
  | identifier :: separator :: others =>
    dsimp only
    rw [readCountersSeparator_eq]
    refine bind_ofReading fun separator => ?_
    match others with
    | [] => exact bind_ofReading fun _ => rfl
    | [style] =>
      dsimp only
      rw [map_ofReading]
      exact bind_ofReading fun _ => bind_ofReading fun _ => rfl
    | _ :: _ :: _ => rfl
  | [] | [_] => rfl

/-! ## Colour functions -/

variable [Scalar ν]

/-- Reads a number or a percentage. -/
def channelOfText? (text : List Char) : Sliced (Option (Channel ν)) := do
  let found ← scan text
  pure (match found with
    | some (numeral, []) => some (.number (Scalar.ofNumeral numeral))
    | some (numeral, ['%']) => some (.percentage (Scalar.ofNumeral numeral))
    | _ => none)

/-- The arguments between the parentheses of a colour function. -/
def channels? (arguments : List Char) : Sliced (Option (List (Channel ν))) := do
  match ← piecesTop (fun c => c == ',' || c == '/' || Text.isSpace c) arguments with
  | .ok pieces => (pieces.mapM fun piece => OptionT.mk (channelOfText? piece)).run
  | .error _ => pure none

/-- The colour of a function call over numbers of type `ν`. -/
def ofFunction? (ν : Type) [Scalar ν] (name : String) (arguments : List Char) :
    Sliced (Option Color) :=
  let name := name.toLower
  if name == "rgb" || name == "rgba" then do
    let channels : Option (List (Channel ν)) ← channels? arguments
    pure (channels.bind (Color.ofChannels? Color.ofRgb))
  else if name == "hsl" || name == "hsla" then do
    let channels : Option (List (Channel ν)) ← channels? arguments
    pure (channels.bind (Color.ofChannels? Color.ofHsl))
  else pure none

theorem channelOfText?_eq (text : List Char) :
    (channelOfText? text : Sliced (Option (Channel ν))) = pure (Channel.ofText? text) := by
  rw [channelOfText?, scan_eq, pure_bind]
  rfl

theorem channels?_eq (arguments : List Char) :
    (channels? arguments : Sliced (Option (List (Channel ν)))) =
      pure (Channel.list? arguments) := by
  rw [channels?, piecesTop_eq, pure_bind, Channel.list?]
  cases Text.piecesTop _ arguments with
  | error fault => rfl
  | ok pieces =>
    dsimp only
    rw [funext channelOfText?_eq, mapM_pure_option, OptionT.run_mk]

/-- **Reading a colour function takes no slice that cannot be taken.** -/
theorem ofFunction?_eq (name : String) (arguments : List Char) :
    ofFunction? ν name arguments = pure (Color.ofFunction? ν name arguments) := by
  rw [ofFunction?, channels?_eq, pure_bind, pure_bind, Color.ofFunction?]
  split_ifs <;> rfl

/-! ## Numbers and functions -/

/-- A number with its type, from a text that starts with a number. -/
def readNumeric (text : List Char) : SlicedReading ν (ν × ValueType) := do
  match ← scan text with
  | none => ofReading (throw (.malformedNumber (String.ofList text)))
  | some (numeral, suffix) =>
    match readSuffix suffix with
    | none => ofReading (throw (.malformedNumber (String.ofList text)))
    | some type => do
      let type ← ofReading (ExceptT.lift type)
      pure (Scalar.ofNumeral numeral, type)

/-- One offset of `rect()`. -/
def readRectSide (text side : List Char) : SlicedReading ν (RectSide ν) :=
  if Text.caselessEq (String.ofList side) "auto" then pure .auto
  else if startsNumber side then do
    let (value, type) ← readNumeric side
    if type.isAbsoluteLength || type.isRelative then pure (.length value type)
    else if type == .number && isZeroLength value then pure (.length value .px)
    else fail text .rectOffset
  else fail text .rectOffset

/-- The arguments of `rect()`. -/
def readRect (text arguments : List Char) : SlicedReading ν (Rect ν) := do
  let sides ← ofText arguments (piecesTop (fun c => c == ',' || Text.isSpace c) arguments)
  match ← sides.mapM (readRectSide text) with
  | [top, right, bottom, left] => pure ⟨top, right, bottom, left⟩
  | _ => fail text .rectArity

/-- A call of a function by its name, from the whole text and the text between the parentheses. -/
def readCall (text name arguments : List Char) : SlicedReading ν (Primitive ν) :=
  let function := (String.ofList name).toLower
  if function == "url" then pure (.uri (String.ofList (unquote arguments)))
  else if function == "attr" && isIdent arguments then pure (.attr (String.ofList arguments))
  else if function == "counter" then .counter <$> readCounter text arguments
  else if function == "counters" then .counter <$> readCounters text arguments
  else if function == "rect" then .rect <$> readRect text arguments
  else do
    match ← ofFunction? ν function arguments with
    | some color => pure (.color color)
    | none => fail text .unsupportedFunction

/-- A function call, given the position of its opening parenthesis. -/
def readFunction (text : List Char) (opening : Nat) : SlicedReading ν (Primitive ν) := do
  let name ← takeTo text opening
  if isIdent name then do
    let afterOpening ← dropTo text (opening + 1)
    match callArguments? afterOpening with
    | none => fail text .unbalancedParentheses
    | some arguments => do
      ofText arguments (checkNesting arguments)
      readCall text name arguments
  else fail text .invalidFunctionName

theorem readNumeric_eq (text : List Char) :
    (readNumeric text : SlicedReading ν (ν × ValueType)) =
      ofReading (ComputedCss.readNumeric text) := by
  rw [readNumeric, scan_eq, liftM_pure, pure_bind, ComputedCss.readNumeric]
  cases Numeral.scan text with
  | none => rfl
  | some found =>
    dsimp only
    cases readSuffix found.2 with
    | none => rfl
    | some type => exact bind_ofReading fun type => rfl

theorem readRectSide_eq (text side : List Char) :
    (readRectSide text side : SlicedReading ν (RectSide ν)) =
      ofReading (ComputedCss.readRectSide text side) := by
  rw [readRectSide, readNumeric_eq, ComputedCss.readRectSide]
  split_ifs
  · rfl
  · refine bind_ofReading fun number => ?_
    dsimp only
    split_ifs <;> rfl
  · rfl

theorem readRect_eq (text arguments : List Char) :
    (readRect text arguments : SlicedReading ν (Rect ν)) =
      ofReading (ComputedCss.readRect text arguments) := by
  rw [readRect, piecesTop_eq, ofText_pure, ComputedCss.readRect]
  refine bind_ofReading fun sides => ?_
  rw [mapM_ofReading (readRectSide_eq text)]
  refine bind_ofReading fun offsets => ?_
  match offsets with
  | [_, _, _, _] | [] | [_] | [_, _] | [_, _, _] | _ :: _ :: _ :: _ :: _ :: _ => rfl

theorem readCall_eq (text name arguments : List Char) :
    (readCall text name arguments : SlicedReading ν (Primitive ν)) =
      ofReading (ComputedCss.readCall text name arguments) := by
  rw [readCall, readCounter_eq, readCounters_eq, readRect_eq, ofFunction?_eq, liftM_pure, pure_bind,
    map_ofReading, map_ofReading, map_ofReading, ComputedCss.readCall]
  split_ifs
  case neg => cases Color.ofFunction? ν (String.ofList name).toLower arguments <;> rfl
  all_goals rfl

theorem readFunction_eq {text : List Char} (h : text.contains '(' = true) :
    (readFunction text (byteLength (text.takeWhile (· != '('))) : SlicedReading ν (Primitive ν)) =
      ofReading (ComputedCss.readFunction text) := by
  obtain ⟨name, hname⟩ : ∃ name, text.takeWhile (· != '(') = name := ⟨_, rfl⟩
  obtain ⟨after, hafter⟩ : ∃ after, (text.dropWhile (· != '(')).drop 1 = after := ⟨_, rfl⟩
  have htext : text = name ++ '(' :: after := hname ▸ hafter ▸ eq_append_of_contains h
  have htake : takeTo text (byteLength name) = pure name := htext ▸ takeTo_append name _
  have hdrop : dropTo text (byteLength name + 1) = pure after := by
    have hcut := dropTo_append (name ++ ['(']) after
    rw [List.append_assoc, List.singleton_append, ← htext, byteLength_append] at hcut
    exact hcut
  rw [readFunction, ComputedCss.readFunction, hname, hafter, htake, hdrop, liftM_pure, pure_bind]
  split_ifs
  · rw [liftM_pure, pure_bind]
    cases callArguments? after with
    | none => rfl
    | some arguments =>
      dsimp only
      rw [checkNesting_eq, ofText_pure, readCall_eq]
      exact bind_ofReading fun _ => rfl
  · rfl

/-! ## Components and values -/

/-- One component, from a text without blanks at its ends. -/
def readTrimmed (text : List Char) : SlicedReading ν (Primitive ν) :=
  match text with
  | [] => fail [] .emptyValue
  | c :: _ =>
    if Text.isQuote c then .string <$> ofText text (readString c text)
    else if c == '#' then readHexColor text
    else if startsNumber text then do
      let (value, type) ← readNumeric text
      pure (.numeric value type)
    else match find? '(' text with
      | some opening => readFunction text opening
      | none =>
        if isIdent text then pure (.ident (String.ofList text))
        else fail text .unrecognized

/-- One component. -/
def readPrimitive (text : List Char) : SlicedReading ν (Primitive ν) :=
  readTrimmed (Text.trim text)

/-- One item of a list with commas. -/
def readListItem (item : List Char) : SlicedReading ν (Primitive ν) :=
  if item.isEmpty then fail item .emptyListItem
  else do
    let words ← ofText item (wordsTop item)
    if words.length == 1 then readPrimitive item
    else if words.all isIdent then
      pure (.ident (" ".intercalate (words.map String.ofList)))
    else fail item .nestedList

/-- A value, from a text without blanks at its ends. -/
def readTrimmedValue (text : List Char) : SlicedReading ν (Value ν) :=
  if text.isEmpty then fail text .emptyValue
  else do
    let items ← ofText text (splitTop (· == ',') text)
    if 1 < items.length then
      let items ← items.mapM readListItem
      pure (.list items .comma)
    else
      let words ← ofText text (wordsTop text)
      if 1 < words.length then
        let items ← words.mapM readPrimitive
        pure (.list items .space)
      else .single <$> readPrimitive text

/-- Classifies a text as one component. -/
def readComponent (text : String) : SlicedReading ν (Primitive ν) :=
  readPrimitive text.toList

/-- Classifies a text as a value. -/
def readValue (text : String) : SlicedReading ν (Value ν) :=
  readTrimmedValue (Text.trim text.toList)

theorem readTrimmed_eq (text : List Char) :
    (readTrimmed text : SlicedReading ν (Primitive ν)) =
      ofReading (ComputedCss.readTrimmed text) := by
  cases text with
  | nil => rfl
  | cons c rest =>
    rw [readTrimmed, readString_eq, ofText_pure, map_ofReading, readHexColor_eq, readNumeric_eq,
      ComputedCss.readTrimmed]
    by_cases hcall : (c :: rest).contains '(' = true
    · rw [find?, if_pos hcall, if_pos hcall]
      dsimp only
      rw [readFunction_eq hcall]
      split_ifs
      · rfl
      · rfl
      · exact bind_ofReading fun _ => rfl
      · rfl
    · rw [find?, if_neg hcall, if_neg hcall]
      split_ifs
      · rfl
      · rfl
      · exact bind_ofReading fun _ => rfl
      all_goals rfl

theorem readPrimitive_eq (text : List Char) :
    (readPrimitive text : SlicedReading ν (Primitive ν)) =
      ofReading (ComputedCss.readPrimitive text) :=
  readTrimmed_eq (Text.trim text)

theorem readListItem_eq (item : List Char) :
    (readListItem item : SlicedReading ν (Primitive ν)) =
      ofReading (ComputedCss.readListItem item) := by
  rw [readListItem, wordsTop_eq, ofText_pure, readPrimitive_eq, ComputedCss.readListItem]
  split_ifs
  · rfl
  · refine bind_ofReading fun words => ?_
    split_ifs <;> rfl

theorem readTrimmedValue_eq (text : List Char) :
    (readTrimmedValue text : SlicedReading ν (Value ν)) =
      ofReading (ComputedCss.readTrimmedValue text) := by
  rw [readTrimmedValue, splitTop_eq, ofText_pure, wordsTop_eq, ofText_pure, readPrimitive_eq,
    map_ofReading, ComputedCss.readTrimmedValue]
  split_ifs
  · rfl
  · refine bind_ofReading fun items => ?_
    split_ifs
    · rw [mapM_ofReading readListItem_eq]
      exact bind_ofReading fun _ => rfl
    · refine bind_ofReading fun words => ?_
      split_ifs
      · rw [mapM_ofReading readPrimitive_eq]
        exact bind_ofReading fun _ => rfl
      · rfl

/-- **No slice is out of range or inside a character.** When every cut of a text is a slice that fails
where no character begins (`exists_cutAt_iff`), the classifier of values and of components, the
notation of hexadecimal colours and the colour functions never come to a slice that fails. What they
read, with its errors and its notices, is what they read without positions. -/
theorem slices_in_range (ν : Type) [Scalar ν] :
    (∀ text, (readValue text : SlicedReading ν (Value ν)).run = .ok <$> Value.read text) ∧
    (∀ text, (readComponent text : SlicedReading ν (Primitive ν)).run =
      .ok <$> Primitive.read text) ∧
    (∀ text, ofHex? text = .ok (Color.ofHex? text)) ∧
    ∀ name arguments, ofFunction? ν name arguments = .ok (Color.ofFunction? ν name arguments) := by
  refine ⟨fun text => ?_, fun text => ?_, ofHex?_eq, ofFunction?_eq⟩
  · rw [readValue, readTrimmedValue_eq]
    rfl
  · rw [readComponent, readPrimitive_eq]
    rfl

end ComputedCss.Slicing
