/-!
# JSON values

The members of an object are kept in order. Whole numbers are apart from the others, because the
two are written differently.
-/

namespace ComputedCss

/-- A JSON value. -/
inductive Json where
  | null
  | bool (value : Bool)
  | integer (value : Int)
  | number (value : Float)
  | string (text : String)
  | array (items : List Json)
  | object (members : List (String × Json))

end ComputedCss
