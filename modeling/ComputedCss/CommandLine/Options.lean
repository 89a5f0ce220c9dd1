import ComputedCss.Number.Double

/-!
# Options of the command line

The command takes one value, and options with a value or without. Before the value has been given, a
word that starts with a hyphen and is no known option is taken as text, so that a value may start
with a hyphen; after that it is a mistake.

* `Options.read` reads all words, and stops at the first mistake or request for information.
-/

namespace ComputedCss.CommandLine

/-- An option that takes a value. -/
inductive ValueOption where
  | property
  | parentFontSize
  | parentLineHeight
  | blockWidth
  | blockHeight
  | config
deriving DecidableEq, Repr

/-- An option without a value. -/
inductive Switch where
  | noSnap
  | json
  | help
  | version
deriving DecidableEq, Repr

/-- An option of either sort. -/
inductive KnownOption where
  | valued (option : ValueOption)
  | switch (switch : Switch)
deriving DecidableEq, Repr

/-- The options by their long names. -/
def longNames : List (String × KnownOption) :=
  [("property", .valued .property), ("parent-font-size", .valued .parentFontSize),
    ("parent-line-height", .valued .parentLineHeight), ("cb-width", .valued .blockWidth),
    ("cb-height", .valued .blockHeight), ("config", .valued .config),
    ("no-snap", .switch .noSnap), ("json", .switch .json), ("help", .switch .help),
    ("version", .switch .version)]

/-- The options by their letters. -/
def letters : List (Char × KnownOption) :=
  [('p', .valued .property), ('c', .valued .config), ('h', .switch .help), ('V', .switch .version)]

/-- Why the words are not carried out. -/
inductive Stop where
  | mistake
  | help
  | version
deriving DecidableEq, Repr

/-- What the words say. -/
structure Options where
  property : String
  value : String
  parentFontSize : Option Float
  parentLineHeight : Option Float
  blockWidth : Option Float
  blockHeight : Option Float
  configPath : Option String
  keepsFractions : Bool
  printsJson : Bool

/-! ## Reading words -/

/-- What has been read so far. -/
structure Progress where
  /-- The values of options. -/
  given : List (ValueOption × String)
  switches : List Switch
  /-- The value of the command. -/
  value : Option String
  /-- The option whose value is the next word. -/
  awaiting : Option ValueOption

namespace Progress

/-- Nothing has been read. -/
def start : Progress := ⟨[], [], none, none⟩

/-- Whether a text can be the value of an option: a number, a path, or any text. -/
def accepts (option : ValueOption) (text : String) : Bool :=
  match option with
  | .property => true
  | .config => !text.isEmpty
  | _ => (Binary64.ofText? text).isSome

/-- Gives an option its value, which may be done once. -/
def give (progress : Progress) (option : ValueOption) (text : String) : Except Stop Progress :=
  if (progress.given.lookup option).isNone && accepts option text then
    .ok { progress with given := (option, text) :: progress.given, awaiting := none }
  else .error .mistake

/-- Meets an option. An option before it that still awaits its value is a mistake. -/
def meet (progress : Progress) (option : KnownOption) (attached : Option String) :
    Except Stop Progress :=
  if progress.awaiting.isSome then .error .mistake
  else match option, attached with
    | .valued option, some text => progress.give option text
    | .valued option, none => .ok { progress with awaiting := some option }
    | .switch .help, none => .error .help
    | .switch .version, none => .error .version
    | .switch switch, none =>
      if progress.switches.contains switch then .error .mistake
      else .ok { progress with switches := switch :: progress.switches }
    | .switch _, some _ => .error .mistake

/-- Meets a text that is no option: the value of the option before it, or of the command. -/
def meetText (progress : Progress) (text : String) : Except Stop Progress :=
  match progress.awaiting, progress.value with
  | some option, _ => progress.give option text
  | none, none => .ok { progress with value := some text }
  | none, some _ => .error .mistake

/-- Meets a word that starts with a hyphen and is no known option. -/
def meetUnknown (progress : Progress) (word : String) : Except Stop Progress :=
  if progress.value.isNone then progress.meetText word else .error .mistake

/-- Meets a word with two hyphens, given what follows them. -/
def meetLong (progress : Progress) (word : String) (body : List Char) : Except Stop Progress :=
  let name := String.ofList (body.takeWhile (· != '='))
  let attached := match body.dropWhile (· != '=') with
    | [] => none
    | _ :: text => some (String.ofList text)
  match longNames.lookup name with
  | some option => progress.meet option attached
  | none => progress.meetUnknown word

/-- Meets a word with one hyphen, given the letter and the text that follow it. -/
def meetLetters (progress : Progress) (word : String) (letter : Char) (rest : List Char) :
    Except Stop Progress :=
  let isLetter c := (letters.lookup c).isSome
  if progress.value.isNone && !(letter :: rest).all isLetter then progress.meetText word
  else match letters.lookup letter, rest with
    | some (.valued option), [] => progress.meet (.valued option) none
    | some (.valued option), '=' :: text =>
      progress.meet (.valued option) (some (String.ofList text))
    | some (.valued option), text => progress.meet (.valued option) (some (String.ofList text))
    | some (.switch switch), _ => progress.meet (.switch switch) none
    | none, _ => .error .mistake

/-- Meets a word. -/
def meetWord (progress : Progress) (word : String) : Except Stop Progress :=
  match word.toList with
  | '-' :: '-' :: body => progress.meetLong word body
  | '-' :: letter :: rest => progress.meetLetters word letter rest
  | _ => progress.meetText word

/-- Meets the words after a double hyphen, which are texts. -/
def meetTexts (progress : Progress) (words : List String) : Except Stop Progress :=
  if progress.awaiting.isSome then .error .mistake
  else words.foldlM meetText progress

/-- Meets all words. -/
def meetWords (progress : Progress) : List String → Except Stop Progress
  | [] => .ok progress
  | word :: words =>
    if word == "--" then progress.meetTexts words
    else do
      let progress ← progress.meetWord word
      progress.meetWords words

/-- The options, when nothing is missing. -/
def finish (progress : Progress) : Except Stop Options :=
  match progress.awaiting, progress.given.lookup .property, progress.value with
  | none, some property, some value =>
    let number option := (progress.given.lookup option).bind Binary64.ofText?
    .ok {
      property, value
      parentFontSize := number .parentFontSize
      parentLineHeight := number .parentLineHeight
      blockWidth := number .blockWidth
      blockHeight := number .blockHeight
      configPath := progress.given.lookup .config
      keepsFractions := progress.switches.contains .noSnap
      printsJson := progress.switches.contains .json }
  | _, _, _ => .error .mistake

end Progress

/-- Reads the words of a command. -/
def Options.read (words : List String) : Except Stop Options := do
  let progress ← Progress.start.meetWords words
  progress.finish

end ComputedCss.CommandLine
