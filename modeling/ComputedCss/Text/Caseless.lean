/-!
# Comparison without regard to case

Keywords, units, properties and function names are compared with the capitals A to Z lowered;
letters outside ASCII are compared as they are.
-/

namespace ComputedCss.Text

/-- Equality up to the case of the letters A to Z. -/
def caselessEq (s t : String) : Bool :=
  s.toLower == t.toLower

theorem caselessEq_iff {s t : String} : caselessEq s t = true ↔ s.toLower = t.toLower := by
  simp [caselessEq]

end ComputedCss.Text
