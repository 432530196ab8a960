import EffectHost.Number.Binary

/-!
# Shortest decimal digits

A number is written with the fewest decimal digits that read back as the same
number.  The numbers that round to a given one form an interval, closed exactly
when the mantissa is even.  Grids of ever finer powers of ten are tried: the first
that has a point in the interval gives the digits, and of two points the nearer.
-/

namespace EffectHost
namespace Number

/-- Which of two equally near digit strings is written. -/
inductive Tie where
  | up
  | even
deriving DecidableEq

/-- A decimal number `digits * 10 ^ exponent`. -/
structure Decimal where
  digits : Nat
  exponent : Int
deriving DecidableEq, Repr

/-- The interval of a number, over one denominator. -/
structure Span where
  low : Nat
  middle : Nat
  high : Nat
  denominator : Nat
  closed : Bool

namespace Span

/-- The span of `mantissa * 2 ^ exponent` in double precision, in quarters of the
mantissa's unit.  Just above a power of two the lower neighbour is only half as
far away. -/
def ofParts (mantissa : Nat) (exponent : Int) : Span :=
  let atPower := mantissa == twoTo Format.double.fractionBits &&
    Format.double.leastExponent < exponent
  let unit := twoTo (exponent - 2).toNat
  { low := (4 * mantissa - if atPower then 1 else 2) * unit
    middle := 4 * mantissa * unit
    high := (4 * mantissa + 2) * unit
    denominator := twoTo (2 - exponent).toNat
    closed := mantissa % 2 == 0 }

/-- The point `point / denominator` lies in the span. -/
def holds (span : Span) (point : Nat) : Bool :=
  if span.closed then span.low ≤ point && point ≤ span.high
  else span.low < point && point < span.high

/-- Measure the span in multiples of `10 ^ exponent`. -/
def onGrid (span : Span) (exponent : Int) : Span :=
  let up := tenTo (-exponent).toNat
  { span with
    low := span.low * up
    middle := span.middle * up
    high := span.high * up
    denominator := span.denominator * tenTo exponent.toNat }

/-- The grid point inside the span that is nearest to its middle. -/
def nearest? (span : Span) (tie : Tie) : Option Nat :=
  let below := span.middle / span.denominator
  let holdsBelow := span.holds (below * span.denominator)
  let holdsAbove := span.holds ((below + 1) * span.denominator)
  let twice := 2 * (span.middle % span.denominator)
  let up :=
    if holdsBelow && holdsAbove then
      span.denominator < twice ||
        (twice == span.denominator && (tie == .up || below % 2 == 1))
    else holdsAbove
  if up then some (below + 1) else if holdsBelow then some below else none

/-- Try the grids from `10 ^ exponent` downwards. -/
def search (span : Span) (tie : Tie) : Nat → Int → Decimal
  | 0, exponent =>
    let grid := span.onGrid exponent
    ⟨grid.middle / grid.denominator, exponent⟩
  | steps + 1, exponent =>
    match (span.onGrid exponent).nearest? tie with
    | some digits => ⟨digits, exponent⟩
    | none => span.search tie steps (exponent - 1)

end Span

/-- The shortest decimal form of the positive number `mantissa * 2 ^ exponent`.
The first grid lies above the number, and seventeen digits always suffice. -/
def shortest (tie : Tie) (mantissa : Nat) (exponent : Int) : Decimal :=
  let start := (exponent + Nat.log2 mantissa) * 30103 / 100000 + 1
  (Span.ofParts mantissa exponent).search tie 20 start

end Number
end EffectHost
