import Animatronic.Control.Angle

/-!
# The hall sensor

The sensor gives a cosine and a sine voltage around a reference.  A sample takes three conversions,
reference first, and stops at the first that fails; the angle then stays what it was.

How an angle is got from two differences is a matter of the arithmetic library that the board is
built with.  Here its two-argument arc tangent is a parameter, `atan2`.
-/

namespace Animatronic

namespace HallSensor

/-- What the converter can be asked to convert. -/
inductive Channel
  | reference
  | cosine
  | sine
deriving DecidableEq

/-- A conversion and its result, which is nothing if it failed. -/
structure Conversion where
  channel : Channel
  result : Option UInt16
deriving DecidableEq

/-- Convert one channel.  The converter gives `readings` in turn, whatever the channel, and fails
once they are used up. -/
def convert (channel : Channel) (readings : List (Option UInt16)) :
    Conversion × List (Option UInt16) :=
  (⟨channel, readings.head?.join⟩, readings.tail)

variable (atan2 : Binary32 → Binary32 → Binary32)

/-- The angle that three conversions stand for. -/
def angle (reference cosine sine : UInt16) : Binary32 :=
  let level (reading : UInt16) : Binary32 := Binary32.ofInt reading.toNat
  Angle.wrap (atan2 (level cosine - level reference) (level sine - level reference))

/-- The three conversions of a sample, up to the first that fails, with the angle if none did. -/
def read (readings : List (Option UInt16)) :
    Option Binary32 × List Conversion × List (Option UInt16) :=
  let (first, readings) := convert .reference readings
  match first.result with
  | none => (none, [first], readings)
  | some reference =>
    let (second, readings) := convert .cosine readings
    match second.result with
    | none => (none, [first, second], readings)
    | some cosine =>
      let (third, readings) := convert .sine readings
      match third.result with
      | none => (none, [first, second, third], readings)
      | some sine => (some (angle atan2 reference cosine sine), [first, second, third], readings)

end HallSensor

/-- A sensor, with the angle that it sampled last. -/
structure HallSensor where
  last : Binary32
deriving DecidableEq

namespace HallSensor

def initial : HallSensor := ⟨Binary32.zero⟩

/-- Sample the angle; the sensor remembers it for a sample that fails. -/
def sample (atan2 : Binary32 → Binary32 → Binary32) (sensor : HallSensor)
    (readings : List (Option UInt16)) : HallSensor × List Conversion × List (Option UInt16) :=
  let (angle, conversions, readings) := read atan2 readings
  (⟨angle.getD sensor.last⟩, conversions, readings)

end HallSensor

end Animatronic
