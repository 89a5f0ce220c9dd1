/-!
# The shortest decimal that reads back

A finite double `m · 2 ^ q` is identified by any decimal in the interval of reals that round to it,
ends included when `m` is even. `Shortest.decimal` takes the fewest digits that reach into that
interval, and of the decimals with that many digits the nearest one.

Everything is counted in units of `10 ^ (-1076)`, in which a double, the ends of its interval and
every decimal grid that matters are whole numbers.

* `Span.closest?_mem`: what is picked on a grid lies in the interval.
-/

namespace ComputedCss

/-- `digits · 10 ^ exponent`. -/
structure Decimal where
  digits : Nat
  exponent : Int
deriving DecidableEq, Repr

namespace Shortest

/-- Which of two equally near decimals is taken. -/
inductive Tie where
  | toEven
  | upward
deriving DecidableEq, Repr

/-- A number with the interval around it that stands for it. -/
structure Span where
  value : Nat
  low : Nat
  high : Nat
  /-- Whether the ends belong to the interval. -/
  closed : Bool

/-- Whether `n` lies in the interval. -/
def Span.mem (span : Span) (n : Nat) : Bool :=
  if span.closed then span.low ≤ n && n ≤ span.high else span.low < n && n < span.high

/-- The interval of the double `m · 2 ^ q`, in units of `10 ^ (-1076)`. The neighbour below a power
of two is half as far away as the one above, unless the exponent is already the least. -/
def Span.ofParts (m : Nat) (q : Int) : Span :=
  let unit := Nat.pow 2 (q + 1074).toNat * Nat.pow 5 1076
  let below := if m = Nat.pow 2 52 && q ≠ -1074 then 1 else 2
  ⟨4 * m * unit, (4 * m - below) * unit, (4 * m + 2) * unit, m % 2 = 0⟩

/-- The multiple of `unit` nearest to the value among those in the interval, as a count of units. -/
def Span.closest? (tie : Tie) (span : Span) (unit : Nat) : Option Nat :=
  let below := span.value / unit
  let above := below + 1
  match span.mem (below * unit), span.mem (above * unit) with
  | true, true =>
    match compare (2 * span.value) ((below + above) * unit), tie with
    | .lt, _ => some below
    | .gt, _ => some above
    | .eq, .upward => some above
    | .eq, .toEven => some (if below % 2 = 0 then below else above)
  | true, false => some below
  | false, true => some above
  | false, false => none

theorem Span.closest?_mem {tie : Tie} {span : Span} {unit n : Nat}
    (h : span.closest? tie unit = some n) : span.mem (n * unit) = true := by
  unfold Span.closest? at h
  grind

/-- Moves the zeros at the end of the digits into the exponent, at most `fuel` of them. -/
def stripZeros : Nat → Decimal → Decimal
  | 0, d => d
  | fuel + 1, d =>
    if d.digits ≠ 0 ∧ d.digits % 10 = 0 then stripZeros fuel ⟨d.digits / 10, d.exponent + 1⟩ else d

/-- How many decimal digits a number has. -/
def digitCount (n : Nat) : Nat :=
  (Nat.toDigits 10 n).length

/-- The decimal of the fewest digits that reads back as `m · 2 ^ q`, and the nearest of those. A
double needs at most seventeen digits. -/
def decimal (tie : Tie) (m : Nat) (q : Int) : Decimal :=
  if m = 0 then ⟨0, 0⟩
  else
    let span := Span.ofParts m q
    let width := digitCount span.value
    let onGrid (count : Nat) : Option Decimal :=
      let scale := width - (count + 1)
      (span.closest? tie (Nat.pow 10 scale)).map fun n => ⟨n, (scale : Int) - 1076⟩
    match (List.range 17).findSome? onGrid with
    | some d => stripZeros 17 d
    | none => ⟨span.value, -1076⟩

end Shortest

end ComputedCss
