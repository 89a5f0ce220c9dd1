import ComputedCss.Color
import ComputedCss.ValueError

/-!
# Values

A value is one component or a list of components. A component is a number with its type, a text of
one of four kinds, a counter, a rectangle or a colour.
-/

namespace ComputedCss

/-- A reference to a counter. -/
structure Counter where
  identifier : String
  listStyle : Option String
  /-- What joins nested counters, when all of them are asked for. -/
  separator : Option String
deriving DecidableEq, Repr

/-- One side of a rectangle. -/
inductive RectSide (ν : Type) where
  | auto
  | length (value : ν) (type : ValueType)

/-- The offsets of a clipping rectangle. -/
structure Rect (ν : Type) where
  top : RectSide ν
  right : RectSide ν
  bottom : RectSide ν
  left : RectSide ν

/-- A component value. -/
inductive Primitive (ν : Type) where
  | numeric (value : ν) (type : ValueType)
  | string (text : String)
  | uri (address : String)
  | ident (name : String)
  | attr (name : String)
  | counter (counter : Counter)
  | rect (rect : Rect ν)
  | color (color : Color)

/-- What separates the items of a list. -/
inductive ListSeparator where
  | comma
  | space
deriving DecidableEq, Repr

/-- A value. -/
inductive Value (ν : Type) where
  | single (primitive : Primitive ν)
  | list (items : List (Primitive ν)) (separator : ListSeparator)

variable {ν : Type}

namespace Primitive

/-- The type of a component. -/
def type : Primitive ν → ValueType
  | numeric _ type => type
  | string _ => .string
  | uri _ => .uri
  | ident _ => .ident
  | attr _ => .attr
  | counter _ => .counter
  | rect _ => .rect
  | color _ => .rgbColor

/-- The number of a numeric component. -/
def number? : Primitive ν → Option ν
  | numeric value _ => some value
  | _ => none

/-- The text of a string, an address, an identifier or an attribute name. -/
def string? : Primitive ν → Option String
  | string text | uri text | ident text | attr text => some text
  | _ => none

/-- The component with another text of the same kind, if it has a text. -/
def withString? (text : String) : Primitive ν → Option (Primitive ν)
  | string _ => some (.string text)
  | uri _ => some (.uri text)
  | ident _ => some (.ident text)
  | attr _ => some (.attr text)
  | _ => none

end Primitive

namespace Value

/-- Whether the value is one component or a list. -/
def kind : Value ν → ValueKind
  | single _ => .scalar
  | list _ _ => .list

/-- The component of a scalar. -/
def primitive? : Value ν → Option (Primitive ν)
  | single primitive => some primitive
  | list _ _ => none

/-- The items of a list; a scalar is its own only item. -/
def items : Value ν → List (Primitive ν)
  | single primitive => [primitive]
  | list items _ => items

end Value

/-! ## Equality of what the texts say -/

section

variable [BEq ν]

instance : BEq (RectSide ν) where
  beq
    | .auto, .auto => true
    | .length v t, .length v' t' => v == v' && t == t'
    | _, _ => false

instance : BEq (Rect ν) where
  beq r s := r.top == s.top && r.right == s.right && r.bottom == s.bottom && r.left == s.left

instance : BEq (Primitive ν) where
  beq
    | .numeric v t, .numeric v' t' => v == v' && t == t'
    | .string s, .string s' => s == s'
    | .uri s, .uri s' => s == s'
    | .ident s, .ident s' => s == s'
    | .attr s, .attr s' => s == s'
    | .counter c, .counter c' => c == c'
    | .rect r, .rect r' => r == r'
    | .color c, .color c' => c == c'
    | _, _ => false

instance : BEq (Value ν) where
  beq
    | .single p, .single p' => p == p'
    | .list items s, .list items' s' => items == items' && s == s'
    | _, _ => false

end

end ComputedCss
