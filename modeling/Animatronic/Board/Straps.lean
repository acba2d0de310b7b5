import Animatronic.Fault
import Animatronic.Board.Basic

/-!
# Address straps

The strap output is driven low and then high, and after each change both strap inputs are read once
the level has settled.  An input tied to a rail reads the same twice; a floating one follows the
output.  The four readings, ordered `H1 H0 L1 L0`, are the strap bits.

`Straps.read` also lists what was done to the pins, up to and including the step that failed.
-/

namespace Animatronic

namespace Straps

/-- The settling time after the strap output changes, in microseconds. -/
def settleTime : Nat := 10

/-- The level of a pin. -/
inductive Level
  | low
  | high
deriving DecidableEq

/-- What is done to the strap pins. -/
inductive Event
  | drive (level : Level)
  | settle
  | sample (input : Fin 2)
deriving DecidableEq

/-- How the pins behave while the output has one level: whether the output can be driven at all,
and what the two inputs read, or nothing for a pin that cannot be read. -/
structure Phase where
  drives : Bool
  first : Option Level
  second : Option Level

/-- One phase: drive the output, let it settle, read both inputs. -/
def Phase.read (level : Level) (phase : Phase) : Except Fault (Level × Level) × List Event :=
  if phase.drives then
    match phase.first, phase.second with
    | none, _ => (.error .unknownIdentity, [.drive level, .settle, .sample 0])
    | some _, none => (.error .unknownIdentity, [.drive level, .settle, .sample 0, .sample 1])
    | some first, some second =>
      (.ok (first, second), [.drive level, .settle, .sample 0, .sample 1])
  else (.error .unknownIdentity, [.drive level])

/-- The weight of a reading in the strap bits. -/
def weigh (weight : UInt8) : Level → UInt8
  | .low => 0
  | .high => weight

/-- Both phases, low first; the second is entered only if the first could be read. -/
def read (low high : Phase) : Except Fault UInt8 × List Event :=
  match low.read .low with
  | (.error fault, events) => (.error fault, events)
  | (.ok (l0, l1), events) =>
    match high.read .high with
    | (.error fault, more) => (.error fault, events ++ more)
    | (.ok (h0, h1), more) =>
      (.ok (weigh 1 l0 + weigh 2 l1 + weigh 4 h0 + weigh 8 h1), events ++ more)

end Straps

end Animatronic
