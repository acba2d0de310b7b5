import Animatronic.Decimal.Fixed

/-!
# The shortest decimal

A floating-point number is printed with the fewest significant digits that still read back as the
same number.  What reads back is an interval around the number, so the question is one of plain
arithmetic: which is the coarsest grid `10 ^ exponent` with a point in the interval, and which of
its points lies nearest to the number?  If a grid has a point in the interval at all, one of the
two neighbours of the number on that grid is such a point.
-/

namespace Animatronic

/-- The number `digits * 10 ^ exponent`. -/
structure Decimal where
  digits : Nat
  exponent : Int
deriving DecidableEq

namespace Decimal

/-- An interval around a positive number; all three are numerators over `den`.  A closed interval
contains its two ends. -/
structure Interval where
  low : Nat
  center : Nat
  high : Nat
  den : Nat
  closed : Bool

/-- The point of the grid `10 ^ exponent` that is nearest to the center, if the interval has a
point of that grid; of two that are equally near, the larger. -/
def Interval.nearest? (interval : Interval) (exponent : Int) : Option Decimal :=
  let scale := Nat.pow 10 (-exponent).toNat
  let den := interval.den * Nat.pow 10 exponent.toNat
  let inside (digits : Nat) : Bool :=
    if interval.closed then
      interval.low * scale ≤ digits * den && digits * den ≤ interval.high * scale
    else
      interval.low * scale < digits * den && digits * den < interval.high * scale
  let center := interval.center * scale
  let below := center / den
  let nearer := if 2 * (center % den) < den then below else below + 1
  let farther := if nearer = below then below + 1 else below
  if inside nearer then some ⟨nearer, exponent⟩
  else if inside farther then some ⟨farther, exponent⟩
  else none

/-- The shortest decimal in an interval, among the given grids from the coarsest to the finest. -/
def Interval.shortest? (interval : Interval) (grids : List Int) : Option Decimal :=
  grids.findSome? interval.nearest?

/-- A decimal written out in full: zeros fill it up on either side, and there is no exponent. -/
def positional (number : Decimal) : List Char :=
  if 0 ≤ number.exponent then
    Nat.toDigits 10 number.digits ++ List.replicate number.exponent.toNat '0'
  else
    let places := (-number.exponent).toNat
    let text := padded (places + 1) number.digits
    text.take (text.length - places) ++ '.' :: text.drop (text.length - places)

end Decimal

end Animatronic
