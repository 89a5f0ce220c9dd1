import ComputedCss.Length

/-!
# Configuration

Three settings change how values are computed.
-/

namespace ComputedCss

/-- The settings of a style. -/
structure Config (ν : Type) where
  /-- The font size of the root style, and of a parent style that has none. -/
  defaultFontSize : ν
  /-- Whether computed lengths are whole pixels. -/
  snapsToPixels : Bool
  /-- Whether the segments of a list lose the blanks at their ends. -/
  trimsSegments : Bool

namespace Config

variable {ν : Type} [Scalar ν]

/-- A font size of 16 pixels, whole pixels and trimmed segments. -/
def standard : Config ν where
  defaultFontSize := Length.defaultFontSize
  snapsToPixels := true
  trimsSegments := true

/-- A computed length as the settings want it. -/
def snap (config : Config ν) (pixels : ν) : ν :=
  if config.snapsToPixels then Length.snap pixels else pixels

end Config

end ComputedCss
