import Animatronic.Binary32.Arithmetic

/-!
# Drives

A drive is a signed byte in the symmetric range from `-127` to `127`.
-/

namespace Animatronic

namespace Drive

/-- The largest drive in either direction. -/
def limit : Int8 := 127

/-- The same limit as a number. -/
def limitAsNumber : Binary32 := ⟨0x42fe0000⟩

/-- The one value below the symmetric range goes to its lower end. -/
def clamp (drive : Int8) : Int8 := if drive < -limit then -limit else drive

/-- A clamped drive lies in the symmetric range. -/
theorem clamp_bounds (drive : Int8) : -limit ≤ clamp drive ∧ clamp drive ≤ limit := by
  have top : drive ≤ limit := Int8.le_iff_toInt_le.mpr (Int8.toInt_le drive)
  unfold clamp
  split
  · decide
  · next inside => exact ⟨Int8.not_lt.mp inside, top⟩

/-- The whole part of a control output, kept within the drive range; an output that is not finite
drives nothing. -/
def ofNumber (output : Binary32) : Int8 :=
  let bounded :=
    if output.isFinite then output.clamp (-limitAsNumber) limitAsNumber else Binary32.zero
  bounded.toInt8

end Drive

end Animatronic
