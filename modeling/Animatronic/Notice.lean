import Animatronic.Binary32.Text
import Animatronic.Bus.Outcome
import Animatronic.Frame.Encode

/-!
# Notices

A notice is an event worth a line in the log.  `Notice.level` and `Notice.text` say how the line is
written; the order of the lines is the order of the events.
-/

namespace Animatronic

/-- What a UART may fail with. -/
inductive UartError
  | overrun
  | lineBreak
  | parity
  | framing
deriving DecidableEq

def UartError.name : UartError → String
  | overrun => "Overrun"
  | lineBreak => "Break"
  | parity => "Parity"
  | framing => "Framing"

/-- How much attention a line in the log asks for. -/
inductive Level
  | debug
  | info
  | warn
deriving DecidableEq

def Level.name : Level → String
  | debug => "DEBUG"
  | info => "INFO"
  | warn => "WARN"

/-- An event worth a line in the log.  `batchActivated` is a batch that became current, and
`motionIdle` a scheduler that has nothing to render any more. -/
inductive Notice
  | motionStarted
  | motionStopped
  | haltRequested
  | batchActivated (setpoints : Nat) (loops : UInt16)
  | batchExhausted
  | motionIdle
  | coefficientsInstalled (kp ki kd : Binary32)
  | batchRejected (fault : Fault)
  | selfTestQueued
  | listening (board : Board)
  | received (outcome : Outcome)
  | oversizedPayload (size : Nat)
  | checksumMismatch
  | requestRejected (fault : Fault)
  | frameDropped (fault : Fault)
  | readFailed (error : UartError)
  | writeFailed (error : UartError)
deriving DecidableEq

namespace Notice

def level : Notice → Level
  | batchActivated .. | batchExhausted | motionIdle | received _ => .debug
  | motionStarted | motionStopped | haltRequested | coefficientsInstalled .. | selfTestQueued
  | listening _ => .info
  | batchRejected _ | oversizedPayload _ | checksumMismatch | requestRejected _ | frameDropped _
  | readFailed _ | writeFailed _ => .warn

/-- A gain as it is written in the log. -/
def gain (x : Binary32) : String := String.ofList x.toPositional

def text : Notice → String
  | motionStarted => "motion start"
  | motionStopped => "motion stop"
  | haltRequested => "motion halt requested"
  | batchActivated setpoints loops =>
    s!"batch activated: {setpoints} setpoints, loop {loops.toNat}"
  | batchExhausted => "batch exhausted"
  | motionIdle => "motion idle"
  | coefficientsInstalled kp ki kd => s!"coefficients kp={gain kp} ki={gain ki} kd={gain kd}"
  | batchRejected fault => s!"setpoint batch rejected: {fault.name}"
  | selfTestQueued => "self-test queued"
  | listening board => s!"comm driver listening as {board.name}"
  | received outcome => s!"frame outcome: {outcome.text}"
  | oversizedPayload size => s!"frame payload of {size} bytes exceeds {Frame.maxPayload}"
  | checksumMismatch => "checksum mismatch, frame dropped"
  | requestRejected fault => s!"request rejected: {fault.name}"
  | frameDropped fault => s!"frame dropped: {fault.name}"
  | readFailed error => s!"uart read error: {error.name}"
  | writeFailed error => s!"uart write error: {error.name}"

end Notice

end Animatronic
