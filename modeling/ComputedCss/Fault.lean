/-!
# What can be wrong with the text of a value

Each fault is one reason for which a text is no value, and has one wording.
-/

namespace ComputedCss

/-- Why a text is no value. -/
inductive Fault where
  | emptyValue
  | emptyListItem
  | nestedList
  | unrecognized
  | unterminatedString
  | textAfterString
  | invalidHexColor
  | unbalancedParentheses
  | invalidFunctionName
  | unsupportedFunction
  | counterArity
  | countersTooFew
  | countersTooMany
  | countersSeparator
  | counterArgument
  | rectArity
  | rectOffset
deriving DecidableEq, Repr

/-- The wording of a fault. -/
def Fault.message : Fault → String
  | emptyValue => "empty value"
  | emptyListItem => "empty list item"
  | nestedList => "nested value lists are not supported"
  | unrecognized => "unrecognized value"
  | unterminatedString => "unterminated string"
  | textAfterString => "unexpected text after string"
  | invalidHexColor => "invalid hex color"
  | unbalancedParentheses => "unbalanced parentheses"
  | invalidFunctionName => "invalid function name"
  | unsupportedFunction => "unsupported function"
  | counterArity => "counter() takes one or two arguments"
  | countersTooFew => "counters() needs a name and a separator"
  | countersTooMany => "too many counters() arguments"
  | countersSeparator => "counters() separator must be a string"
  | counterArgument => "counter arguments must be identifiers"
  | rectArity => "rect() takes four offsets"
  | rectOffset => "rect() offsets must be lengths or 'auto'"

end ComputedCss
