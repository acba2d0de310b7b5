import Animatronic.Bench.MotionLoop
import Animatronic.Bus.ByteLine

/-!
# A board on its bench

A node is everything that one board consists of: its receiver on a byte line, its service, and its
motion loop on a simulated shaft.  Whatever part of it is exercised, the scheduler is the same one,
and all log lines go to the log of the line.
-/

namespace Animatronic

/-- One board; `identity` is what its service takes the board to be. -/
structure Node where
  receiver : Receiver
  identity : Identity
  loop : MotionLoop
  line : ByteLine
deriving DecidableEq

namespace Node

/-- A board just after boot: nothing is running, and the line is quiet. -/
def fresh (receiver : Receiver) (identity : Identity) : Node :=
  { receiver := receiver
    identity := identity
    loop := ⟨.initial (.position .uncalibrated), .initial, false⟩
    line := .quiet }

def scheduler (node : Node) : Scheduler := node.loop.scheduler

/-- The node with another state of its scheduler, and more in its log. -/
def proceed (node : Node) (s : Scheduler) (notices : List Notice) : Node :=
  { node with
    loop := { node.loop with scheduler := s }
    line := notices.foldl (fun line notice => line.note notice) node.line }

/-- The node with the record of its calls and its log emptied. -/
def cleared (node : Node) : Node := { node with line := { node.line with calls := [], log := [] } }

/-- Carry out an operation of the scheduler. -/
def operate (node : Node) (operation : Operation) : Answer × Node :=
  let (answer, s) := node.scheduler.apply operation
  (answer, node.proceed s (node.scheduler.notices operation))

/-- Let the motion loop take the tick that waits. -/
def wake (node : Node) (calibration : Option Calibration) : Option Int8 × Node :=
  let (drive, notices, loop) := node.loop.wake calibration
  (drive, { node with loop := loop }.proceed loop.scheduler notices)

/-- Hand a request to the service. -/
def handle (node : Node) (code : UInt8) (payload : List UInt8) : Except Fault Response × Node :=
  let served := Service.handle node.identity code payload node.scheduler
  (served.result, node.proceed served.scheduler served.notices)

/-- Hand a diagnostic to the service. -/
def diagnose (node : Node) (kind : DiagnosticKind) : List UInt8 × Node :=
  let served := Service.diagnose node.identity kind node.scheduler
  (served.result, node.proceed served.scheduler served.notices)

/-- Receive once. -/
def poll (node : Node) : Ending Outcome × Node :=
  let (ending, line, s) := ByteLine.poll node.receiver node.identity node.line node.scheduler
  (ending, { node with line := line }.proceed s [])

/-- Receive until the line is used up. -/
def listen (node : Node) : Ending Unit × Node :=
  let (ending, line, s) := ByteLine.listen node.receiver node.identity node.line node.scheduler
  (ending, { node with line := line }.proceed s [])

end Node

end Animatronic
