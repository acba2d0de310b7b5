import Animatronic.Bus.Timing
import Animatronic.Service

/-!
# Exchanges

An `Exchange` is a finite program over the bus and the service of a board.  Each step asks for one
effect and goes on with its answer, so the program can be followed on any bus: a queue of bytes, a
transceiver on a simulated wire, or a bus that fails as it likes.

A `Bus` says how the effects on the line come out, and `Exchange.run` follows a program on it.  The
service acts on the scheduler as soon as it is asked, so its effects stand even if the exchange is
given up later while it waits.
-/

namespace Animatronic

/-- How a read or a write can fail: the bytes did not come in time, or the transceiver failed. -/
inductive BusFault
  | timeout
  | transceiver
deriving DecidableEq

def BusFault.fault : BusFault → Fault
  | timeout => .timeout
  | transceiver => .transceiver

/-- A program on the bus that ends with an `α`.  `read` asks for exactly `length` bytes, within a
limit if there is one; `restart` throws away what has come in and brings the transceiver back to
idle; `serve` has the service handle a request, and `diagnose` has it answer a diagnostic. -/
inductive Exchange (α : Type) : Type
  | done (result : α)
  | read (length : Nat) (limit : Option Microseconds)
      (next : Except BusFault (Bytes length) → Exchange α)
  | write (bytes : List UInt8) (next : Except BusFault Unit → Exchange α)
  | restart (next : Exchange α)
  | serve (code : UInt8) (payload : List UInt8) (next : Except Fault Response → Exchange α)
  | diagnose (kind : DiagnosticKind) (next : List UInt8 → Exchange α)
  | note (notice : Notice) (next : Exchange α)
  | abort (cause : Abort)

/-- A line as a board sees it.  The operations that wait give nothing if the wait does not end;
`note` says where the log lines go. -/
structure Bus (Line : Type) where
  read : (length : Nat) → Option Microseconds → Line →
    Option (Except BusFault (Bytes length)) × Line
  write : List UInt8 → Line → Except BusFault Unit × Line
  restart : Line → Option Unit × Line
  note : Notice → Line → Line

/-- How following a program came to an end; a program is `waiting` if it waits for bytes that do
not come. -/
inductive Ending (α : Type)
  | finished (result : α)
  | waiting
  | aborted (cause : Abort)
deriving DecidableEq

namespace Exchange

variable {α Line : Type}

/-- Go on with a result, or stop the firmware if there is none. -/
def orAbort {β : Type} (result : Except Abort β) (next : β → Exchange α) : Exchange α :=
  match result with
  | .ok value => next value
  | .error cause => .abort cause

/-- Follow a program on a bus, for a board with the given identity. -/
def run (bus : Bus Line) (identity : Identity) :
    Exchange α → Line → Scheduler → Ending α × Line × Scheduler
  | done result, line, s => (.finished result, line, s)
  | read length limit next, line, s =>
    match bus.read length limit line with
    | (some result, line) => (next result).run bus identity line s
    | (none, line) => (.waiting, line, s)
  | write bytes next, line, s =>
    let (result, line) := bus.write bytes line
    (next result).run bus identity line s
  | restart next, line, s =>
    match bus.restart line with
    | (some (), line) => next.run bus identity line s
    | (none, line) => (.waiting, line, s)
  | serve code payload next, line, s =>
    let served := Service.handle identity code payload s
    (next served.result).run bus identity
      (served.notices.foldl (fun line notice => bus.note notice line) line) served.scheduler
  | diagnose kind next, line, s =>
    let served := Service.diagnose identity kind s
    (next served.result).run bus identity
      (served.notices.foldl (fun line notice => bus.note notice line) line) served.scheduler
  | note notice next, line, s => next.run bus identity (bus.note notice line) s
  | abort cause, line, s => (.aborted cause, line, s)

end Exchange

end Animatronic
