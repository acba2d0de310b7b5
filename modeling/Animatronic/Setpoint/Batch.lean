import Animatronic.Fault
import Animatronic.Frame.Encode

/-!
# Setpoints and batches

A setpoint holds one target for a number of ticks.  A batch is a list of setpoints that is played a
number of times after a delay.

On the wire a batch is the delay, the loop count and the number of setpoints, then each setpoint as
its duration and its target, every one of them a 16-bit word.  A batch has to fit in the largest
payload, which is why it holds at most 254 setpoints.  `Batch.parse` reads this layout, and refuses
a payload with bytes missing or left over.
-/

namespace Animatronic

/-- Hold `target` for `duration` ticks.  A zero duration plays for one tick. -/
structure Setpoint where
  duration : UInt16
  target : UInt16
deriving DecidableEq

namespace Setpoint

/-- The number of bytes of a setpoint on the wire. -/
def wireLength : Nat := 4

def bytes (setpoint : Setpoint) : List UInt8 :=
  Word.toBytes 2 setpoint.duration.toNat ++ Word.toBytes 2 setpoint.target.toNat

/-- The setpoints that a byte string spells; bytes that make no whole setpoint are left out. -/
def readAll : List UInt8 → List Setpoint
  | u0 :: u1 :: t0 :: t1 :: rest =>
    ⟨UInt16.ofNat (Word.ofBytes [u0, u1]), UInt16.ofNat (Word.ofBytes [t0, t1])⟩ :: readAll rest
  | _ => []

@[simp] theorem length_bytes (setpoint : Setpoint) : setpoint.bytes.length = wireLength := by
  simp [bytes, wireLength]

/-- Setpoints are read back as they were written. -/
theorem readAll_bytes (setpoints : List Setpoint) :
    readAll (setpoints.flatMap bytes) = setpoints := by
  induction setpoints with
  | nil => rfl
  | cons setpoint rest ih =>
    have duration := Word.ofBytes_toBytes 2 setpoint.duration.toNat
    have target := Word.ofBytes_toBytes 2 setpoint.target.toNat
    rw [Nat.mod_eq_of_lt setpoint.duration.toNat_lt] at duration
    rw [Nat.mod_eq_of_lt setpoint.target.toNat_lt] at target
    simp only [Word.toBytes] at duration target
    simp only [List.flatMap_cons, bytes, Word.toBytes, List.cons_append, List.nil_append, readAll,
      ih, duration, target, UInt16.ofNat_toNat]

end Setpoint

namespace Batch

/-- The delay, the loop count and the number of setpoints. -/
def headerLength : Nat := 6

/-- As many setpoints as fit in the largest payload. -/
def maxSetpoints : Nat := (Frame.maxPayload - headerLength) / Setpoint.wireLength

/-- The loop count that means "repeat forever". -/
def forever : UInt16 := 0xFFFF

end Batch

/-- Setpoints to be played `loops` times after `delay` ticks. -/
structure Batch where
  delay : UInt16
  loops : UInt16
  setpoints : List Setpoint
  fits : setpoints.length ≤ Batch.maxSetpoints
deriving DecidableEq

namespace Batch

/-- The empty batch without a delay; activating it halts motion. -/
def stop : Batch := ⟨0, 0, [], Nat.zero_le _⟩

/-- A batch of the given setpoints, if there are not too many of them. -/
def build (delay loops : UInt16) (setpoints : List Setpoint) : Except Fault Batch :=
  if fits : setpoints.length ≤ maxSetpoints then .ok ⟨delay, loops, setpoints, fits⟩
  else .error .malformedPayload

def isInfinite (batch : Batch) : Bool := batch.loops = forever

/-- The batch without its setpoints. -/
def cleared (batch : Batch) : Batch := { batch with setpoints := [], fits := Nat.zero_le _ }

/-- The batch that a payload spells. -/
def parse (payload : List UInt8) : Except Fault Batch :=
  match payload with
  | d0 :: d1 :: l0 :: l1 :: c0 :: c1 :: body =>
    let count := Word.ofBytes [c0, c1]
    if count > maxSetpoints ∨ body.length ≠ count * Setpoint.wireLength then
      .error .malformedPayload
    else
      build (UInt16.ofNat (Word.ofBytes [d0, d1])) (UInt16.ofNat (Word.ofBytes [l0, l1]))
        (Setpoint.readAll body)
  | _ => .error .malformedPayload

/-- The payload that spells a batch. -/
def bytes (batch : Batch) : List UInt8 :=
  Word.toBytes 2 batch.delay.toNat ++ Word.toBytes 2 batch.loops.toNat ++
    Word.toBytes 2 batch.setpoints.length ++ batch.setpoints.flatMap Setpoint.bytes

end Batch

end Animatronic
