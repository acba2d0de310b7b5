import Animatronic.Bench.Wire
import Animatronic.Bus.Receiver

/-!
# On the wire

Here the bus is a real transceiver on the simulated wire.  Operations on it are carried out one
after the other, each within the patience of the bench: one that still waits when its time is over
is given up, and takes all of its time.
-/

namespace Animatronic

namespace Wire

/-- Carry out one operation on a transceiver that may wait, and measure the time that it took,
unless it is given up. -/
def timed {α : Type} (operation : Transceiver Wire → Option α × Transceiver Wire)
    (t : Transceiver Wire) : Option (α × Nat) × Transceiver Wire :=
  match operation { t with device := t.device.beginStep } with
  | (some result, after) => (some (result, after.device.now - t.device.now), after)
  | (none, after) => (none, { after with device := after.device.giveUp })

/-- The transceiver on the wire. -/
def bus : Bus (Transceiver Wire) := Transceiver.bus uart

end Wire

/-- A board whose transceiver hangs on the simulated wire. -/
structure WiredNode where
  receiver : Receiver
  scheduler : Scheduler
  transceiver : Transceiver Wire

namespace WiredNode

/-- A board just after boot, on an idle wire. -/
def fresh (receiver : Receiver) : WiredNode :=
  ⟨receiver, .initial (.position .uncalibrated), .initial .idle⟩

/-- Carry out an operation of the scheduler. -/
def operate (node : WiredNode) (operation : Operation) : Answer × WiredNode :=
  let (answer, s) := node.scheduler.apply operation
  let notices := node.scheduler.notices operation
  (answer,
    { node with
      scheduler := s
      transceiver := notices.foldl (fun t notice => t.note notice) node.transceiver })

/-- Receive once: the outcome with the time that it took, nothing if the board still waits, or the
cause for which the firmware stopped. -/
def poll (node : WiredNode) : Except Abort (Option (Outcome × Nat)) × WiredNode :=
  let start := node.transceiver.device.now
  let ready := { node.transceiver with device := node.transceiver.device.beginStep }
  let (ending, t, s) :=
    node.receiver.poll.run Wire.bus (some node.receiver.board) ready node.scheduler
  match ending with
  | .finished outcome =>
    (.ok (some (outcome, t.device.now - start)), { node with scheduler := s, transceiver := t })
  | .waiting =>
    (.ok none, { node with scheduler := s, transceiver := { t with device := t.device.giveUp } })
  | .aborted cause => (.error cause, { node with scheduler := s, transceiver := t })

end WiredNode

end Animatronic
