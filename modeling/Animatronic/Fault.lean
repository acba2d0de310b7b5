import Animatronic.Word

/-!
# Faults

A `Fault` is a cause.  `Fault.message` is its text for people, `Fault.name` its short form in log
lines, and `Fault.code` the number carried by an error reply.  Faults of the line itself have no
code: the sender of a damaged frame is unknown, and a board without identity never replies.

An `Abort` is different in kind: the firmware stops on the spot, and nothing answers.
-/

namespace Animatronic

/-- What can go wrong.  `timeout` is a read whose bytes did not come in time, `transceiver` a
failure of the transceiver itself, `noPidLoop` a request for gains on a board whose renderer has no
PID loop, and `unknownIdentity` a set of address straps that names no board or could not be
read. -/
inductive Fault
  | timeout
  | checksumMismatch
  | transceiver
  | queueFull
  | poolExhausted
  | payloadTooLarge (size : UInt16)
  | unknownMessageType (code : UInt8)
  | noPidLoop
  | malformedPayload
  | unknownIdentity
deriving DecidableEq

namespace Fault

/-- A byte in hexadecimal after `0x`, without padding. -/
def hexadecimal (byte : UInt8) : String :=
  "0x" ++ String.ofList (Nat.toDigits 16 byte.toNat)

/-- The text that explains a fault to a person. -/
def message : Fault → String
  | timeout => "Timed out waiting for bus data"
  | checksumMismatch => "Frame checksum mismatch"
  | transceiver => "Bus transceiver error"
  | queueFull => "Setpoint queue is full"
  | poolExhausted => "Setpoint pool is exhausted"
  | payloadTooLarge size => s!"Payload of {size.toNat} bytes exceeds the maximum"
  | unknownMessageType code => "Unknown message type " ++ hexadecimal code
  | noPidLoop => "Active renderer has no PID state"
  | malformedPayload => "Malformed payload"
  | unknownIdentity => "Address straps do not name a known board"

/-- The kind of a fault, as log lines name it. -/
def kind : Fault → String
  | timeout => "Timeout"
  | checksumMismatch => "ChecksumMismatch"
  | transceiver => "Bus"
  | queueFull => "QueueFull"
  | poolExhausted => "PoolExhausted"
  | payloadTooLarge _ => "PayloadTooLarge"
  | unknownMessageType _ => "UnknownMessageType"
  | noPidLoop => "NotPidRenderer"
  | malformedPayload => "InvalidPayload"
  | unknownIdentity => "InvalidIdentity"

/-- The kind of a fault followed by what it carries. -/
def name (fault : Fault) : String :=
  match fault with
  | payloadTooLarge size => s!"{fault.kind}({size.toNat})"
  | unknownMessageType code => s!"{fault.kind}({code.toNat})"
  | _ => fault.kind

/-- The number reported to the sender, for the faults that are reported at all. -/
def code : Fault → Option Int16
  | queueFull => some (-1)
  | poolExhausted => some (-2)
  | payloadTooLarge _ => some (-3)
  | unknownMessageType _ => some (-4)
  | noPidLoop => some (-5)
  | malformedPayload => some (-6)
  | timeout | checksumMismatch | transceiver | unknownIdentity => none

/-- The payload of an error reply: the code as a signed 16-bit word. -/
def payload (code : Int16) : List UInt8 :=
  Word.toBytes 2 code.toUInt16.toNat

end Fault

/-- What stops the firmware altogether: a pool of more slots than the one-byte handles can tell
apart, or a waiting time past the largest number of microseconds that a clock can hold. -/
inductive Abort
  | poolTooLarge
  | durationOverflow
deriving DecidableEq

/-- The last words of the firmware. -/
def Abort.message : Abort → String
  | poolTooLarge => "pool index must fit in a u8"
  | durationOverflow => "overflow when adding durations"

end Animatronic
