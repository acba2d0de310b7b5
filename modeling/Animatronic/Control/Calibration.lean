import Animatronic.Control.Angle
import Animatronic.Control.Drive

/-!
# Calibration

A calibration shifts raw sensor angles so that the lower end stop reads zero, and maps raw targets
into the range between the end stops, keeping a margin clear at each end.

It is found by a sweep at boot: the motor is driven against one end stop and then the other, and
the angle is read at each once the motor has settled.
-/

namespace Animatronic

/-- The raw angle at the lower end stop, the calibrated angle at the upper one, and the fraction of
the range that is kept clear at each end. -/
structure Calibration where
  offset : Binary32
  upper : Binary32
  margin : Binary32
deriving DecidableEq

namespace Calibration

/-- The margin of every calibrated board. -/
def standardMargin : Binary32 := ⟨0x3d4ccccd⟩

/-- The smallest angle that is commanded; anything below rests at zero. -/
def smallestTarget : Binary32 := ⟨0x3c23d70a⟩

/-- The largest raw target. -/
def fullScale : Binary32 := Binary32.ofInt 65535

/-- The full circle without an offset, used before any sweep. -/
def uncalibrated : Calibration := ⟨Binary32.zero, Angle.tau, standardMargin⟩

/-- The calibration between two raw end-stop angles. -/
def ofEndStops (lower upper : Binary32) : Calibration :=
  let offset := if lower.isFinite then lower else Binary32.zero
  ⟨offset, Angle.wrap (upper - offset), standardMargin⟩

/-- The calibrated position of a raw angle. -/
def apply (calibration : Calibration) (raw : Binary32) : Binary32 :=
  Angle.wrap (raw - calibration.offset)

/-- The angle of a raw target: the whole range of targets spans the calibrated range less its
margins. -/
def scale (calibration : Calibration) (target : UInt16) : Binary32 :=
  let fraction := Binary32.ofInt target.toNat / fullScale
  let span := Binary32.one - Binary32.two * calibration.margin
  let angle := (fraction * span + calibration.margin) * calibration.upper
  if !angle.isFinite || angle < smallestTarget then Binary32.zero
  else angle.min calibration.upper

end Calibration

/-! ## The sweep -/

namespace Sweep

/-- The drive that pushes the motor against an end stop. -/
def drive : Int8 := 75

/-- How long the motor is given to settle there, in milliseconds. -/
def settleTime : Nat := 1000

/-- What happens during a sweep. -/
inductive Event
  | drive (drive : Int8)
  | settle
  | sample
deriving DecidableEq

/-- The course of a sweep on a board whose lower end stop lies in `direction`.  It leaves the motor
stopped. -/
def course (direction : Int8) : List Event :=
  let towardLower := if direction < 0 then -drive else drive
  [.drive towardLower, .settle, .sample, .drive (-towardLower), .settle, .sample, .drive 0]

/-- The reading of a sensor that gives `samples` in turn, and zero once they are used up. -/
def reading (samples : List Binary32) : Binary32 × List Binary32 :=
  (samples.head?.getD Binary32.zero, samples.tail)

/-- The calibration found by a sweep on such a sensor, and the samples left over. -/
def run (samples : List Binary32) : Calibration × List Binary32 :=
  let (lower, samples) := reading samples
  let (upper, samples) := reading samples
  (Calibration.ofEndStops lower upper, samples)

end Sweep

end Animatronic
