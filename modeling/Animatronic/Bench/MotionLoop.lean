import Animatronic.Control.Calibration
import Animatronic.Scheduler.Operation

/-!
# The motion loop

The motion loop waits for a tick, samples the position sensor, lets the scheduler tick and applies
the drive.  The tick is a single flag: set twice before the loop takes it, it counts once, and it
stays set until it is taken.

On the bench the shaft turns by the drive times a gain, and the sensor reads its angle.
-/

namespace Animatronic

/-- A shaft that turns as it is driven. -/
structure Shaft where
  angle : Binary32
  gain : Binary32
deriving DecidableEq

namespace Shaft

/-- A shaft at rest at zero, turning by a thousandth of a radian per unit of drive. -/
def initial : Shaft := ⟨Binary32.zero, ⟨0x3a83126f⟩⟩

/-- The motor turns the shaft in proportion to its drive, for one tick. -/
def turn (shaft : Shaft) (drive : Int8) : Shaft :=
  { shaft with angle := shaft.angle + Binary32.ofInt drive.toInt * shaft.gain }

/-- What the position sensor reads, through a calibration if there is one. -/
def sample (shaft : Shaft) (calibration : Option Calibration) : Binary32 :=
  match calibration with
  | some calibration => calibration.apply shaft.angle
  | none => shaft.angle

end Shaft

/-- A scheduler on a shaft; a signalled loop has a tick waiting to be taken. -/
structure MotionLoop where
  scheduler : Scheduler
  shaft : Shaft
  signalled : Bool
deriving DecidableEq

namespace MotionLoop

/-- Signal a tick. -/
def signal (loop : MotionLoop) : MotionLoop := { loop with signalled := true }

/-- Let the loop take the tick that waits, if one does: the drive that it applied, and what it
logged. -/
def wake (loop : MotionLoop) (calibration : Option Calibration) :
    Option Int8 × List Notice × MotionLoop :=
  if loop.signalled then
    let sample := loop.shaft.sample calibration
    let (drive, scheduler) := loop.scheduler.tick sample
    (some drive, loop.scheduler.tickNotices, ⟨scheduler, loop.shaft.turn drive, false⟩)
  else (none, [], loop)

end MotionLoop

end Animatronic
