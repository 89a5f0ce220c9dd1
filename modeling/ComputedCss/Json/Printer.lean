import ComputedCss.Json.Basic
import ComputedCss.Number.Notation
import ComputedCss.Text.Quoted

/-!
# Writing JSON

Two layouts: `Json.compact` has no white space, `Json.pretty` puts every item and member on a line
of its own, indented by two spaces for each level. Both leave an empty array or object closed up.
-/

namespace ComputedCss.Json

/-- One character of a JSON string. -/
def escape (c : Char) : List Char :=
  if c == '\x22' then ['\\', '\x22']
  else if c == '\\' then ['\\', '\\']
  else if c == '\x08' then ['\\', 'b']
  else if c == '\x0C' then ['\\', 'f']
  else if c == '\n' then ['\\', 'n']
  else if c == '\r' then ['\\', 'r']
  else if c == '\t' then ['\\', 't']
  else if c.toNat < 0x20 then
    ['\\', 'u', '0', '0', Nat.digitChar (c.toNat / 16), Nat.digitChar (c.toNat % 16)]
  else [c]

/-- A JSON string. -/
def stringLiteral (text : String) : String :=
  String.ofList ('\x22' :: text.toList.flatMap escape ++ ['\x22'])

/-- The text of a value that holds no others. -/
def leaf : Json → String
  | null => "null"
  | bool value => if value then "true" else "false"
  | integer value => toString value
  | number value => NumberFormat.json.render value
  | string text => stringLiteral text
  | array _ => "[]"
  | object _ => "\x7b\x7d"

/-- A line break and the indentation of a level. -/
def lineBreak (level : Nat) : String :=
  String.ofList ('\n' :: List.replicate (2 * level) ' ')

mutual

/-- The text of a value over several lines, at a level of nesting. -/
def prettyAt (level : Nat) : Json → String
  | array (item :: items) =>
    "[" ++ lineBreak (level + 1) ++ prettyAt (level + 1) item ++ prettyItems (level + 1) items ++
      lineBreak level ++ "]"
  | object ((key, value) :: members) =>
    "\x7b" ++ lineBreak (level + 1) ++ stringLiteral key ++ ": " ++ prettyAt (level + 1) value ++
      prettyMembers (level + 1) members ++ lineBreak level ++ "\x7d"
  | value => leaf value

/-- The items after the first. -/
def prettyItems (level : Nat) : List Json → String
  | [] => ""
  | item :: items =>
    "," ++ lineBreak level ++ prettyAt level item ++ prettyItems level items

/-- The members after the first. -/
def prettyMembers (level : Nat) : List (String × Json) → String
  | [] => ""
  | (key, value) :: members =>
    "," ++ lineBreak level ++ stringLiteral key ++ ": " ++ prettyAt level value ++
      prettyMembers level members

end

/-- The text of a value over several lines. -/
def pretty (json : Json) : String :=
  prettyAt 0 json

mutual

/-- The text of a value on one line. -/
def compact : Json → String
  | array (item :: items) => "[" ++ compact item ++ compactItems items ++ "]"
  | object ((key, value) :: members) =>
    "\x7b" ++ stringLiteral key ++ ":" ++ compact value ++ compactMembers members ++ "\x7d"
  | value => leaf value

/-- The items after the first. -/
def compactItems : List Json → String
  | [] => ""
  | item :: items => "," ++ compact item ++ compactItems items

/-- The members after the first. -/
def compactMembers : List (String × Json) → String
  | [] => ""
  | (key, value) :: members =>
    "," ++ stringLiteral key ++ ":" ++ compact value ++ compactMembers members

end

end ComputedCss.Json
