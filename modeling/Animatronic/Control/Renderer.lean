import Animatronic.Control.Calibration
import Animatronic.Control.Pid
import Animatronic.Frame.Coefficients
import Animatronic.Setpoint.PulseStep

/-!
# Renderers

A renderer turns the target of the playing batch into a drive, tick by tick.  Position boards run a
PID loop on the calibrated position.  The vibration board works open loop: a new target starts a
full-drive pulse toward its step, and once the pulse ends the step itself is the drive.

Both go through the same phases: `reset` when the scheduler starts to render after a pause,
`batchActivated` whenever a batch becomes current, and on each tick `beforeTick` with the position,
`compute` with the target, and `afterTick`.
-/

namespace Animatronic

/-- The tick rate that gains are normalised for, per second. -/
def tickRate : UInt32 := 1000

/-! ## Position boards -/

/-- The renderer of a position board.  A held target came with the gains and wins over the batch
target. -/
structure PidRenderer where
  pid : Pid
  calibration : Calibration
  position : Binary32
  held : Option UInt16
deriving DecidableEq

namespace PidRenderer

/-- A renderer without gains. -/
def ofCalibration (calibration : Calibration) : PidRenderer :=
  ⟨Pid.idle, calibration, Binary32.zero, none⟩

/-- Install new gains; a target that comes with them is held. -/
def setCoefficients (renderer : PidRenderer) (coefficients : Coefficients) : PidRenderer :=
  { renderer with
    pid := renderer.pid.setGains coefficients.kp coefficients.ki coefficients.kd tickRate
    held := coefficients.target <|> renderer.held }

def reset (renderer : PidRenderer) (position : Binary32) : PidRenderer :=
  { renderer with pid := renderer.pid.reset position, position := position }

/-- The target that is in force while the batch asks for `target`. -/
def effective (renderer : PidRenderer) (target : UInt16) : UInt16 := renderer.held.getD target

/-- Move toward the angle of the effective target, and drive for the position seen last. -/
def compute (renderer : PidRenderer) (target : UInt16) : Int8 × PidRenderer :=
  let angle := renderer.calibration.scale (renderer.effective target)
  let (output, pid) := (renderer.pid.setTarget angle).update renderer.position
  (Drive.ofNumber output, { renderer with pid := pid })

end PidRenderer

/-! ## The vibration board -/

/-- The renderer of the vibration board: the target computed last, and of its pulse the ticks that
remain and the drive. -/
structure PulseRenderer where
  target : UInt16
  remaining : Nat
  drive : Int8
deriving DecidableEq

namespace PulseRenderer

def initial : PulseRenderer := ⟨0, 0, 0⟩

/-- A reset ends a pulse and forgets nothing else. -/
def reset (renderer : PulseRenderer) : PulseRenderer := { renderer with remaining := 0 }

/-- A new target starts a pulse in the direction of its step. -/
def aim (renderer : PulseRenderer) (target : UInt16) : PulseRenderer :=
  if target = renderer.target then renderer
  else
    let previous := PulseStep.ofTarget renderer.target
    let next := PulseStep.ofTarget target
    { target := target
      remaining := next.pulse.toNat
      drive := if previous.step < next.step then Drive.limit else -Drive.limit }

def compute (renderer : PulseRenderer) (target : UInt16) : Int8 × PulseRenderer :=
  let aimed := renderer.aim target
  if aimed.remaining > 0 then (aimed.drive, { aimed with remaining := aimed.remaining - 1 })
  else (Drive.clamp (PulseStep.ofTarget aimed.target).step, aimed)

end PulseRenderer

/-! ## Either of them -/

/-- The renderer of either kind of board. -/
inductive Renderer
  | pid (renderer : PidRenderer)
  | pulse (renderer : PulseRenderer)
deriving DecidableEq

namespace Renderer

/-- A fresh renderer for a position board. -/
def position (calibration : Calibration) : Renderer := pid (.ofCalibration calibration)

/-- A fresh renderer for the vibration board. -/
def vibration : Renderer := pulse .initial

/-- The scheduler starts to render after a pause. -/
def reset (renderer : Renderer) (position : Binary32) : Renderer :=
  match renderer with
  | pid renderer => pid (renderer.reset position)
  | pulse renderer => pulse renderer.reset

/-- A batch becomes current: a held target has served its time. -/
def batchActivated : Renderer → Renderer
  | pid renderer => pid { renderer with held := none }
  | pulse renderer => pulse renderer

/-- The position of this tick becomes known. -/
def beforeTick (renderer : Renderer) (position : Binary32) : Renderer :=
  match renderer with
  | pid renderer => pid { renderer with position := position }
  | pulse renderer => pulse renderer

/-- The drive of this tick. -/
def compute (renderer : Renderer) (target : UInt16) : Int8 × Renderer :=
  match renderer with
  | pid renderer =>
    let (drive, renderer) := renderer.compute target
    (drive, pid renderer)
  | pulse renderer =>
    let (drive, renderer) := renderer.compute target
    (drive, pulse renderer)

/-- The drive has been computed; neither renderer has anything left to do. -/
def afterTick : Renderer → Renderer
  | pid renderer => pid renderer
  | pulse renderer => pulse renderer

/-- Install new gains, which only a PID loop has a use for. -/
def setCoefficients (renderer : Renderer) (coefficients : Coefficients) : Except Fault Renderer :=
  match renderer with
  | pid renderer => .ok (pid (renderer.setCoefficients coefficients))
  | pulse _ => .error .noPidLoop

end Renderer

end Animatronic
