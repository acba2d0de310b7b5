import Animatronic.Fault

/-!
# Timing

All waiting times are whole microseconds in 64 bits.  The limit on a payload is its time on the
wire, at ten bits per byte, plus a slack; the two products on the way saturate, and a sum that
passes the largest duration stops the firmware.
-/

namespace Animatronic

/-- A duration in microseconds. -/
abbrev Microseconds := UInt64

/-- The speed of the line in bits per second, zero counting as one, the limits on the rest of a
header once its first byte has arrived and on a footer, and the slack that is added to the wire
time of a payload. -/
structure Timing where
  baud : UInt32
  headerLimit : Microseconds
  footerLimit : Microseconds
  slack : Microseconds
deriving DecidableEq

namespace Timing

/-- The timing of the creature's bus. -/
def standard : Timing := ⟨115200, 2000, 2000, 5000⟩

/-- A product that stops at the largest 64-bit number. -/
def saturatingMul (a b : Nat) : Nat := min (a * b) (UInt64.size - 1)

/-- The time that `length` bytes take on the wire, rounded down. -/
def wireTime (timing : Timing) (length : UInt64) : Nat :=
  saturatingMul (saturatingMul length.toNat 10) 1000000 / max timing.baud.toNat 1

/-- The limit on reading `length` bytes of payload. -/
def payloadLimit (timing : Timing) (length : UInt64) : Except Abort Microseconds :=
  let limit := timing.wireTime length + timing.slack.toNat
  if limit < UInt64.size then .ok (UInt64.ofNat limit) else .error .durationOverflow

end Timing

end Animatronic
