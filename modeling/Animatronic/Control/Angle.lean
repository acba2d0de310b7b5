import Animatronic.Binary32.Arithmetic

/-!
# Angles

All positions are angles in the half-open turn from zero to `tau`.  `wrap` brings any number there:
it takes the exact remainder of a division by `tau`, lifts a negative one by a turn, and sends what
the lifting rounds up to a full turn, and whatever is not a number, to zero.
-/

namespace Animatronic

namespace Angle

open Binary32 (zero)

/-- One turn. -/
def tau : Binary32 := ⟨0x40c90fdb⟩

/-- The remainder of `x` by `modulus`, lifted once by the modulus if it is negative. -/
def remainder (x modulus : Binary32) : Binary32 :=
  let rest := x % modulus
  if zero ≤ rest then rest else rest + modulus.abs

/-- The angle in `[0, tau)` that points in the direction of `angle`. -/
def wrap (angle : Binary32) : Binary32 :=
  if angle.isFinite then
    let wrapped := remainder angle tau
    if tau ≤ wrapped then zero else wrapped
  else zero

end Angle

end Animatronic
