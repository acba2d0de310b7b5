import Animatronic.Binary32.Basic
import Animatronic.Decimal.Fixed
import Animatronic.Decimal.Shortest

/-!
# Numbers as text

A position is reported with four places (`toFixed`), and log lines show a gain in full
(`toPositional`).  Both keep the sign of a negative zero.
-/

namespace Animatronic

namespace Binary32

/-- A number in decimal with `places` digits after the point, rounded exactly once. -/
def toFixed (places : Nat) (x : Binary32) : List Char :=
  if x.isNaN then "NaN".toList
  else
    let sign := if x.isNegative then ['-'] else []
    sign ++ if x.isInfinite then "inf".toList
      else Decimal.fixed places x.magnitude quantaPerUnit

/-- The numbers that read back as `x`: half a gap to either side, where the gap below a power of
two is half as wide as the gap above it.  The two ends round to the even fraction. -/
def readingInterval (x : Binary32) : Decimal.Interval :=
  let gap := 1 <<< (x.exponent - 1)
  let narrow := x.fraction = 0 ∧ 1 < x.exponent
  { low := 4 * x.magnitude - (if narrow then gap else 2 * gap)
    center := 4 * x.magnitude
    high := 4 * x.magnitude + 2 * gap
    den := 4 * quantaPerUnit
    closed := x.fraction % 2 = 0 }

/-- The decimal grids that matter: the largest number is below `10 ^ 39`, and a quantum is wider
than `10 ^ (-45)`. -/
def decimalGrids : List Int :=
  (List.range 84).map fun (n : Nat) => 38 - (n : Int)

/-- A number in decimal with the fewest digits that read back, written without an exponent. -/
def toPositional (x : Binary32) : List Char :=
  if x.isNaN then "NaN".toList
  else
    let sign := if x.isNegative then ['-'] else []
    sign ++ if x.isInfinite then "inf".toList
      else if x.magnitude = 0 then ['0']
      else match x.readingInterval.shortest? decimalGrids with
        | some number => number.positional
        | none => []

end Binary32

end Animatronic
