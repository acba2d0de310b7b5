import Animatronic.Control.Drive

/-!
# The PID loop

The controller works on positions in radians.  Its gains are normalised once for a fixed tick rate,
so that an update takes no time step.  Whatever it is fed, its state stays finite, its integrator
and its output stay within the drive range, and its setpoint moves by at most one degree per tick.
-/

namespace Animatronic

/-- A controller; the integral gain is per tick, the derivative gain per second. -/
structure Pid where
  kp : Binary32
  ki : Binary32
  kd : Binary32
  setpoint : Binary32
  lastError : Binary32
  integrator : Binary32
deriving DecidableEq

namespace Pid

open Binary32 (zero)

/-- The largest change of the setpoint in one tick: one degree. -/
def maxStep : Binary32 := ⟨0x3c8efa35⟩

/-- A controller without gains; it drives nothing. -/
def idle : Pid := ⟨zero, zero, zero, zero, zero, zero⟩

/-- `x`, or zero if it is not finite. -/
def finiteOrZero (x : Binary32) : Binary32 := if x.isFinite then x else zero

/-- `x` brought into the drive range; NaN becomes zero. -/
def bounded (x : Binary32) : Binary32 :=
  finiteOrZero (x.clamp (-Drive.limitAsNumber) Drive.limitAsNumber)

/-- Store gains, normalised for a rate of `tickRate` updates per second. -/
def setGains (pid : Pid) (kp ki kd : Binary32) (tickRate : UInt32) : Pid :=
  let frequency := Binary32.ofInt (max tickRate.toNat 1)
  { pid with kp := kp, ki := ki / frequency, kd := kd * frequency }

/-- Jump to a position and forget the past. -/
def reset (pid : Pid) (position : Binary32) : Pid :=
  { pid with setpoint := finiteOrZero position, lastError := zero, integrator := zero }

/-- Move the setpoint toward a target, by one step at most; a target that is not finite is
ignored. -/
def setTarget (pid : Pid) (target : Binary32) : Pid :=
  let setpoint := finiteOrZero pid.setpoint
  if target.isFinite then
    { pid with setpoint := setpoint + (target - setpoint).clamp (-maxStep) maxStep }
  else { pid with setpoint := setpoint }

/-- One control step: the output, and the controller after it. -/
def update (pid : Pid) (position : Binary32) : Binary32 × Pid :=
  let error := finiteOrZero (pid.setpoint - position)
  let integrator := bounded (pid.integrator + error)
  let output := bounded (pid.kp * error + pid.ki * integrator + pid.kd * (error - pid.lastError))
  (output, { pid with lastError := error, integrator := integrator })

end Pid

end Animatronic
