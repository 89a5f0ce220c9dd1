import ComputedCss.Config
import ComputedCss.Json.Basic
import ComputedCss.Number.Double

/-!
# Settings in JSON

The settings are an object with a member for each, or an array of them in order. What is left out
has its standard value. A member of another name is ignored; a known one may stand only once and
has to be of the right type.
-/

namespace ComputedCss

/-- A finite number. -/
def Json.finite? : Json → Option Float
  | .integer n => some (Float.ofInt n)
  | .number x => if x.isFinite then some x else none
  | _ => none

/-- A truth value. -/
def Json.bool? : Json → Option Bool
  | .bool value => some value
  | _ => none

namespace Config

/-- One setting by its name in JSON. -/
inductive Setting where
  | defaultFontSize
  | snapsToPixels
  | trimsSegments
deriving DecidableEq, Repr

namespace Setting

/-- The settings, in the order in which an array lists them. -/
def all : List Setting :=
  [defaultFontSize, snapsToPixels, trimsSegments]

/-- The name of a setting. -/
def name : Setting → String
  | defaultFontSize => "default-font-size-px"
  | snapsToPixels => "snap-to-whole-pixels"
  | trimsSegments => "trim-list-segments"

/-- The settings with one of them read from JSON. -/
def store? (setting : Setting) (json : Json) (config : Config Float) : Option (Config Float) :=
  match setting with
  | defaultFontSize => json.finite?.map fun size => { config with defaultFontSize := size }
  | snapsToPixels => json.bool?.map fun snaps => { config with snapsToPixels := snaps }
  | trimsSegments => json.bool?.map fun trims => { config with trimsSegments := trims }

end Setting

/-- Reads settings that have been paired with their values. -/
def ofPairs? (pairs : List (Setting × Json)) : Option (Config Float) :=
  pairs.foldlM (fun config (setting, json) => setting.store? json config) standard

/-- The members that are settings. -/
def settingsOf (members : List (String × Json)) : List (Setting × Json) :=
  members.filterMap fun (key, json) =>
    (Setting.all.find? (·.name == key)).map fun setting => (setting, json)

/-- Reads the settings. -/
def ofJson? : Json → Option (Config Float)
  | .object members =>
    let pairs := settingsOf members
    if (pairs.map (·.1)).Nodup then ofPairs? pairs else none
  | .array items =>
    if items.length ≤ Setting.all.length then ofPairs? (Setting.all.zip items) else none
  | _ => none

/-- Writes the settings, with numbers as the caller writes them. -/
def toJson (number : Float → Json) (config : Config Float) : Json :=
  .object [(Setting.defaultFontSize.name, number config.defaultFontSize),
    (Setting.snapsToPixels.name, .bool config.snapsToPixels),
    (Setting.trimsSegments.name, .bool config.trimsSegments)]

end Config

end ComputedCss
