import Animatronic.Board.Basic
import Animatronic.Control.Drive

/-!
# The H-bridge

Channel A of the pulse-width unit drives the motor forward and channel B drives it in reverse, so
at most one of them may be on.  A drive adds to a fixed offset below the top of the counter.  A
bridge that is told to do what it does already touches nothing.
-/

namespace Animatronic

namespace HBridge

/-- The configuration of the pulse-width unit. -/
structure Pwm where
  top : UInt16
  divider : UInt8
  compareA : UInt16
  compareB : UInt16
  enabled : Bool
deriving DecidableEq

/-- What is done to the peripherals of a bridge. -/
inductive Event
  | configure (pwm : Pwm)
  | enable (high : Bool)
deriving DecidableEq

/-- The top of the counter; the vibration motor runs at a higher frequency. -/
def top (identity : Identity) : UInt16 := if identity.isPulsed then 207 else 306

def divider : UInt8 := 3

end HBridge

/-- A bridge, with its pulse unit and the drive in force. -/
structure HBridge where
  pwm : HBridge.Pwm
  drive : Int8
deriving DecidableEq

namespace HBridge

/-- A bridge at rest: the unit is configured without output, and the bridge disabled. -/
def initial (identity : Identity) : HBridge × List Event :=
  let pwm : Pwm := ⟨top identity, divider, 0, 0, true⟩
  (⟨pwm, 0⟩, [.configure pwm, .enable false])

/-- The compare value of a drive: its size on top of `top - 127`. -/
def duty (pwm : Pwm) (drive : Int8) : UInt16 :=
  UInt16.ofNat (pwm.top.toNat - Drive.limit.toInt.natAbs + drive.toInt.natAbs)

/-- The configuration for a drive. -/
def Pwm.driven (pwm : Pwm) (drive : Int8) : Pwm :=
  { pwm with
    compareA := if 0 < drive then duty pwm drive else 0
    compareB := if drive < 0 then duty pwm drive else 0 }

/-- Apply a drive.  The bridge is switched on or off before its outputs change. -/
def setDrive (bridge : HBridge) (drive : Int8) : HBridge × List Event :=
  let drive := Drive.clamp drive
  if drive = bridge.drive then (bridge, [])
  else
    let pwm := bridge.pwm.driven drive
    (⟨pwm, drive⟩, [.enable (drive ≠ 0), .configure pwm])

end HBridge

end Animatronic
