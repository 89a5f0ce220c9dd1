import ComputedCss.Text.Printable
import ComputedCss.Text.Extending

/-!
# Quoted text

The form in which a text appears inside a description of a value: between double quotes, on one
line, with everything that would not show as itself written as an escape.

* The double quote and the backslash are preceded by a backslash.
* Tab, line feed, carriage return and the null character have a letter each.
* Any other character that is unprintable or extending is written by its code point.
-/

namespace ComputedCss.Text

/-- The lower-case hexadecimal digits of a number. -/
def hexDigits (n : Nat) : List Char :=
  Nat.toDigits 16 n

/-- One character of a quoted text. -/
def escapeQuoted (c : Char) : List Char :=
  if c == '\x00' then ['\\', '0']
  else if c == '\t' then ['\\', 't']
  else if c == '\n' then ['\\', 'n']
  else if c == '\r' then ['\\', 'r']
  else if c == '\\' then ['\\', '\\']
  else if c == '\x22' then ['\\', '\x22']
  else if isExtending c || !isPrintable c then
    ['\\', 'u', '\x7b'] ++ hexDigits c.toNat ++ ['\x7d']
  else [c]

/-- The text between double quotes, on one line. -/
def quoted (text : String) : String :=
  String.ofList (['\x22'] ++ text.toList.flatMap escapeQuoted ++ ['\x22'])

end ComputedCss.Text
