import ComputedCss.Fault
import ComputedCss.Text.Blank

/-!
# Text at the top level

A character is at the top level when it stands outside quotes and outside parentheses. Inside
quotes a backslash protects the next character; parentheses count only outside quotes.

* `Nesting.step` moves past one character, and fails on a parenthesis that closes nothing.
* `splitTop` cuts a text at its separators of the top level and trims the pieces.
-/

namespace ComputedCss.Text

/-- A double or a single quote. -/
def isQuote (c : Char) : Bool :=
  c == '\x22' || c == '\x27'

/-- Where a scan stands among quotes and parentheses. -/
structure Nesting where
  /-- The quote that closes the string the scan is in. -/
  quote : Option Char
  /-- Whether a backslash inside the string protects the next character. -/
  escaped : Bool
  /-- How many parentheses are open. -/
  depth : Nat
deriving DecidableEq, Repr

namespace Nesting

/-- Outside everything. -/
def top : Nesting := ⟨none, false, 0⟩

/-- Whether the scan is outside quotes and parentheses. -/
def isTop (nesting : Nesting) : Bool :=
  nesting.quote.isNone && nesting.depth == 0

/-- The place after one more character, unless that closes a parenthesis that is not open. -/
def step (nesting : Nesting) (c : Char) : Option Nesting :=
  match nesting.quote with
  | some quote =>
    if nesting.escaped then some { nesting with escaped := false }
    else if c == '\\' then some { nesting with escaped := true }
    else if c == quote then some { nesting with quote := none }
    else some nesting
  | none =>
    if isQuote c then some { nesting with quote := some c }
    else if c == '(' then some { nesting with depth := nesting.depth + 1 }
    else if c == ')' then
      match nesting.depth with
      | 0 => none
      | depth + 1 => some { nesting with depth }
    else some nesting

/-- What is wrong with a text that ends here. -/
def endFault (nesting : Nesting) : Option Fault :=
  if nesting.quote.isSome then some .unterminatedString
  else if nesting.depth != 0 then some .unbalancedParentheses
  else none

end Nesting

/-- Whether a character read here cuts the text: a separator at the top level that is neither a
quote nor a parenthesis. -/
def cuts (isSeparator : Char → Bool) (nesting : Nesting) (c : Char) : Bool :=
  nesting.isTop && isSeparator c && !(isQuote c || c == '(' || c == ')')

/-- The pieces between the cuts, from a place onwards: the first piece and the others. -/
def splitFrom (isSeparator : Char → Bool) :
    Nesting → List Char → Except Fault (List Char × List (List Char))
  | nesting, [] =>
    match nesting.endFault with
    | some fault => .error fault
    | none => .ok ([], [])
  | nesting, c :: rest =>
    if cuts isSeparator nesting c then
      (splitFrom isSeparator nesting rest).map fun (first, others) => ([], first :: others)
    else
      match nesting.step c with
      | none => .error .unbalancedParentheses
      | some next =>
        (splitFrom isSeparator next rest).map fun (first, others) => (c :: first, others)

/-- Cuts a text at every separator of the top level, and trims the pieces. -/
def splitTop (isSeparator : Char → Bool) (text : List Char) : Except Fault (List (List Char)) :=
  (splitFrom isSeparator .top text).map fun (first, others) => (first :: others).map trim

/-- Whether quotes and parentheses are balanced. -/
def checkNesting (text : List Char) : Except Fault Unit :=
  (splitTop (fun _ => false) text).map fun _ => ()

/-- Cuts a text at the separators of the top level and drops the empty pieces. -/
def piecesTop (isSeparator : Char → Bool) (text : List Char) : Except Fault (List (List Char)) :=
  (splitTop isSeparator text).map (·.filter (!·.isEmpty))

/-- The words of a text: what white space of the top level separates. -/
def wordsTop (text : List Char) : Except Fault (List (List Char)) :=
  piecesTop isSpace text

end ComputedCss.Text
