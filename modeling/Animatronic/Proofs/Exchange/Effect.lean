import Animatronic.Bus.ByteLine

/-!
# The effects of an exchange

`Exchange.run` says where a program ends.  `Exchange.effects` lists what it does on the way: the
reads and writes and whether they were completed, the restarts, and what the service is asked.
-/

namespace Animatronic

/-- Something that a program did; a read or a write is `complete` if it did not fail. -/
inductive Effect
  | read (length : Nat) (complete : Bool)
  | wrote (bytes : List UInt8) (complete : Bool)
  | restarted
  | served (code : UInt8) (payload : List UInt8)
  | diagnosed (kind : DiagnosticKind)
deriving DecidableEq

namespace Effect

/-- The bytes that an effect took off the line. -/
def taken : Effect → Nat
  | read length true => length
  | _ => 0

/-- The request that an effect handed to the service. -/
def request? : Effect → Option (UInt8 × List UInt8)
  | served code payload => some (code, payload)
  | _ => none

def isRead : Effect → Bool
  | read .. => true
  | _ => false

/-- The bytes that some effects took off the line, in all. -/
def totalTaken : List Effect → Nat
  | [] => 0
  | effect :: rest => effect.taken + totalTaken rest

/-- The requests that some effects handed to the service, in order. -/
def requests (effects : List Effect) : List (UInt8 × List UInt8) := effects.filterMap request?

end Effect

namespace Exchange

variable {α Line : Type}

/-- What a program does when it is followed on a bus. -/
def effects (bus : Bus Line) (identity : Identity) :
    Exchange α → Line → Scheduler → List Effect
  | done _, _, _ => []
  | read length limit next, line, s =>
    match bus.read length limit line with
    | (some result, line) =>
      .read length result.isOk :: (next result).effects bus identity line s
    | (none, _) => [.read length false]
  | write bytes next, line, s =>
    let (result, line) := bus.write bytes line
    .wrote bytes result.isOk :: (next result).effects bus identity line s
  | restart next, line, s =>
    match bus.restart line with
    | (some (), line) => .restarted :: next.effects bus identity line s
    | (none, _) => [.restarted]
  | serve code payload next, line, s =>
    let served := Service.handle identity code payload s
    .served code payload :: (next served.result).effects bus identity
      (served.notices.foldl (fun line notice => bus.note notice line) line) served.scheduler
  | diagnose kind next, line, s =>
    let served := Service.diagnose identity kind s
    .diagnosed kind :: (next served.result).effects bus identity
      (served.notices.foldl (fun line notice => bus.note notice line) line) served.scheduler
  | note notice next, line, s => next.effects bus identity (bus.note notice line) s
  | abort _, _, _ => []

/-- The requests that a program hands to the service. -/
def requests (bus : Bus Line) (identity : Identity) (exchange : Exchange α) (line : Line)
    (s : Scheduler) : List (UInt8 × List UInt8) :=
  Effect.requests (exchange.effects bus identity line s)

end Exchange

end Animatronic
