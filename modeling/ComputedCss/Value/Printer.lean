import ComputedCss.Value.Basic

/-!
# Texts of values

How a value is written. Numbers are followed by the suffix of their type, strings stand between
double quotes, colours are hexadecimal, and the items of a list are joined by their separator.

* `escapeString` is the writing of one character inside a string.
-/

namespace ComputedCss

variable {ν : Type} [Scalar ν]

/-- One character of a string: a control character is written by its code and a space, a quote or a
backslash has a backslash before it, and the null character is replaced. -/
def escapeString (c : Char) : List Char :=
  if c == '\x00' then ['\ufffd']
  else if c.toNat < 0x20 || c == '\x7f' then '\\' :: Text.hexDigits c.toNat ++ [' ']
  else if c == '\x22' || c == '\\' then ['\\', c]
  else [c]

/-- A string between double quotes. -/
def stringText (text : String) : String :=
  String.ofList ('\x22' :: text.toList.flatMap escapeString ++ ['\x22'])

/-- The text of a number in a type. -/
def numericText (value : ν) (type : ValueType) : String :=
  Scalar.text value ++ type.suffix

/-- The text of a counter. -/
def Counter.text (counter : Counter) : String :=
  let style := match counter.listStyle with
    | some style => ", " ++ style
    | none => ""
  match counter.separator with
  | some separator =>
    "counters(" ++ counter.identifier ++ ", " ++ stringText separator ++ style ++ ")"
  | none => "counter(" ++ counter.identifier ++ style ++ ")"

/-- The text of a side. -/
def RectSide.text : RectSide ν → String
  | auto => "auto"
  | length value type => numericText value type

/-- The text of a rectangle. -/
def Rect.text (rect : Rect ν) : String :=
  "rect(" ++ rect.top.text ++ ", " ++ rect.right.text ++ ", " ++ rect.bottom.text ++ ", " ++
    rect.left.text ++ ")"

/-- The text of a component. -/
def Primitive.text : Primitive ν → String
  | numeric value type => numericText value type
  | string text => stringText text
  | uri address => "url(" ++ address ++ ")"
  | ident name => name
  | attr name => "attr(" ++ name ++ ")"
  | counter c => c.text
  | rect r => r.text
  | color c => c.toHex

/-- What is written between two items. -/
def ListSeparator.text : ListSeparator → String
  | comma => ", "
  | space => " "

/-- The text of a value. -/
def Value.text : Value ν → String
  | single primitive => primitive.text
  | list items separator => separator.text.intercalate (items.map Primitive.text)

end ComputedCss
