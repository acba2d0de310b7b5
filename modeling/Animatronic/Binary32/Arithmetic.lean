import Animatronic.Rounding
import Animatronic.Binary32.Basic

/-!
# Arithmetic

Each operation computes its exact result in quanta, as an integer or as a quotient of two naturals,
and rounds it once with `ofQuotient`.  A remainder is exact and is not rounded at all.  Nothing is
ever fused: a product that is added to something has been rounded before.
-/

namespace Animatronic

namespace Binary32

/-! ## Rounding to the grid -/

/-- `num / den` quanta rounded to 24 significant bits, a tie going to the even neighbour.  Below
`2 ^ 24` quanta the grid is the quanta themselves. -/
def roundQuanta (num den : Nat) : Nat :=
  let shift := (num / den).log2 - 23
  roundDiv num (den <<< shift) <<< shift

/-- The number nearest to `num / den` quanta, with the given sign.  What rounds past the largest
finite number is an infinity. -/
def ofQuotient (negative : Bool) (num den : Nat) : Binary32 :=
  ofMagnitude negative (Nat.min (roundQuanta num den) infiniteMagnitude)

/-- The number nearest to an integer. -/
def ofInt (n : Int) : Binary32 :=
  ofQuotient (n < 0) (n.natAbs <<< 149) 1

/-- The integer part, toward zero. -/
def truncate (x : Binary32) : Int :=
  let whole := x.magnitude >>> 149
  if x.isNegative then -(whole : Int) else whole

/-- The integer part as a drive-sized integer: NaN is zero, and what lies outside of the range goes
to its nearest end. -/
def toInt8 (x : Binary32) : Int8 :=
  if x.isNaN then 0 else Int8.ofInt (max (-128) (Min.min 127 x.truncate))

/-! ## Operations -/

/-- A sum of opposite numbers is zero without a sign, unless both are the negative zero. -/
def add (x y : Binary32) : Binary32 :=
  if x.isNaN || y.isNaN then nan
  else if x.isInfinite then
    if y.isInfinite && x.isNegative != y.isNegative then nan else x
  else if y.isInfinite then y
  else
    let sum := x.value + y.value
    if sum = 0 then ofMagnitude (x.isNegative && y.isNegative) 0
    else ofQuotient (sum < 0) sum.natAbs 1

def sub (x y : Binary32) : Binary32 := x.add y.neg

def mul (x y : Binary32) : Binary32 :=
  let negative := x.isNegative != y.isNegative
  if x.isNaN || y.isNaN then nan
  else if x.isInfinite || y.isInfinite then
    if x.magnitude = 0 || y.magnitude = 0 then nan else ofMagnitude negative infiniteMagnitude
  else ofQuotient negative (x.magnitude * y.magnitude) quantaPerUnit

def div (x y : Binary32) : Binary32 :=
  let negative := x.isNegative != y.isNegative
  if x.isNaN || y.isNaN then nan
  else if x.isInfinite then
    if y.isInfinite then nan else ofMagnitude negative infiniteMagnitude
  else if y.isInfinite then ofMagnitude negative 0
  else if y.magnitude = 0 then
    if x.magnitude = 0 then nan else ofMagnitude negative infiniteMagnitude
  else ofQuotient negative (x.magnitude <<< 149) y.magnitude

/-- What is left of `x` after taking away whole multiples of `y`: exact, and with the sign
of `x`. -/
def rem (x y : Binary32) : Binary32 :=
  if x.isNaN || y.isNaN || x.isInfinite || y.magnitude = 0 then nan
  else if y.isInfinite then x
  else ofMagnitude x.isNegative (x.magnitude % y.magnitude)

instance : Add Binary32 := ⟨add⟩
instance : Sub Binary32 := ⟨sub⟩
instance : Mul Binary32 := ⟨mul⟩
instance : Div Binary32 := ⟨div⟩
instance : Mod Binary32 := ⟨rem⟩

end Binary32

end Animatronic
