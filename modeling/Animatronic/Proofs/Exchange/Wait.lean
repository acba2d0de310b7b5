import Animatronic.Bus.Exchange

/-!
# The waits of an exchange

`Exchange.waits` lists the reads that a program asks a bus for, with the limits that it sets, and
the bytes that come.  Where a program is known to ask for certain reads, one after the other and
until one of them fails, its waits follow a plan (`Wait.Follows`).

`Exchange.Awaits` says what holds of the waits of a program and of its ending on any bus, even if
that does not answer.  Each step of a program has a lemma here.
-/

namespace Animatronic

/-- A read that is asked for: how many bytes, and within which limit if there is one. -/
structure Demand where
  length : Nat
  limit : Option Microseconds
deriving DecidableEq

/-- A read that was asked for, and the bytes that came unless it failed or still waits. -/
structure Wait extends Demand where
  received : Option (List UInt8)
deriving DecidableEq

/-- Some waits are those planned, in order, and end early with the first that is in vain. -/
inductive Wait.Follows : List Demand → List Wait → Prop
  | done : Follows [] []
  | failed (demand : Demand) (plan : List Demand) : Follows (demand :: plan) [⟨demand, none⟩]
  | read (demand : Demand) {plan : List Demand} {waits : List Wait} (bytes : Bytes demand.length)
      (later : Follows plan waits) :
      Follows (demand :: plan) (⟨demand, some bytes.val⟩ :: waits)

variable {α Line : Type} {bus : Bus Line} {identity : Identity}

/-- The firmware has not stopped. -/
def Ending.Lives (ending : Ending α) : Prop := ∀ cause, ending ≠ .aborted cause

/-- Waits that follow a plan, and an ending that is no stop. -/
structure Wait.Observes (plan : List Demand) (waits : List Wait) (ending : Ending α) : Prop where
  follows : Wait.Follows plan waits
  lives : ending.Lives

/-- Without a plan there is no wait. -/
theorem Wait.Observes.eq_nil {waits : List Wait} {ending : Ending α}
    (observes : Wait.Observes [] waits ending) : waits = [] := by
  obtain ⟨follows, -⟩ := observes
  cases follows
  rfl

namespace Exchange

open Wait (Observes)

/-- The bytes that the answer to a read brings. -/
def received {length : Nat} : Except BusFault (Bytes length) → Option (List UInt8)
  | .ok bytes => some bytes.val
  | .error _ => none

/-- The reads that a program asks for when it is followed on a bus. -/
def waits (bus : Bus Line) (identity : Identity) :
    Exchange α → Line → Scheduler → List Wait
  | done _, _, _ => []
  | read length limit next, line, s =>
    match bus.read length limit line with
    | (some result, line) =>
      ⟨⟨length, limit⟩, received result⟩ :: (next result).waits bus identity line s
    | (none, _) => [⟨⟨length, limit⟩, none⟩]
  | write bytes next, line, s =>
    let (result, line) := bus.write bytes line
    (next result).waits bus identity line s
  | restart next, line, s =>
    match bus.restart line with
    | (some (), line) => next.waits bus identity line s
    | (none, _) => []
  | serve code payload next, line, s =>
    let served := Service.handle identity code payload s
    (next served.result).waits bus identity
      (served.notices.foldl (fun line notice => bus.note notice line) line) served.scheduler
  | diagnose kind next, line, s =>
    let served := Service.diagnose identity kind s
    (next served.result).waits bus identity
      (served.notices.foldl (fun line notice => bus.note notice line) line) served.scheduler
  | note notice next, line, s => next.waits bus identity (bus.note notice line) s
  | abort _, _, _ => []

/-- What holds of the waits of a program and of its ending, whatever comes in and whatever state
the scheduler is in. -/
def Awaits (exchange : Exchange α) (bus : Bus Line) (identity : Identity)
    (post : List Wait → Ending α → Prop) : Prop :=
  ∀ line s, post (exchange.waits bus identity line s) (exchange.run bus identity line s).1

variable {exchange : Exchange α} {post : List Wait → Ending α → Prop}

theorem Awaits.mono {weaker : List Wait → Ending α → Prop}
    (awaits : exchange.Awaits bus identity post)
    (weakens : ∀ waits ending, post waits ending → weaker waits ending) :
    exchange.Awaits bus identity weaker :=
  fun line s => weakens _ _ (awaits line s)

theorem awaits_done (result : α) : (done result).Awaits bus identity (Observes []) :=
  fun _ _ => ⟨.done, nofun⟩

theorem awaits_abort {cause : Abort} (holds : post [] (.aborted cause)) :
    (abort cause).Awaits bus identity post :=
  fun _ _ => holds

theorem Awaits.note (awaits : exchange.Awaits bus identity post) (notice : Notice) :
    (Exchange.note notice exchange).Awaits bus identity post :=
  fun line s => awaits (bus.note notice line) s

theorem Awaits.read {length : Nat} {limit : Option Microseconds}
    {next : Except BusFault (Bytes length) → Exchange α}
    (complete : ∀ bytes, (next (.ok bytes)).Awaits bus identity
      fun waits => post (⟨⟨length, limit⟩, some bytes.val⟩ :: waits))
    (failed : ∀ fault, (next (.error fault)).Awaits bus identity
      fun waits => post (⟨⟨length, limit⟩, none⟩ :: waits))
    (endless : post [⟨⟨length, limit⟩, none⟩] .waiting) :
    (Exchange.read length limit next).Awaits bus identity post := by
  intro line s
  rw [run, waits]
  generalize bus.read length limit line = answer
  obtain ⟨_ | fault | bytes, after⟩ := answer
  · exact endless
  · exact failed fault after s
  · exact complete bytes after s

theorem Awaits.write {bytes : List UInt8} {next : Except BusFault Unit → Exchange α}
    (awaits : ∀ result, (next result).Awaits bus identity post) :
    (Exchange.write bytes next).Awaits bus identity post :=
  fun line s => awaits (bus.write bytes line).1 (bus.write bytes line).2 s

theorem Awaits.restart (awaits : exchange.Awaits bus identity (Observes [])) :
    (Exchange.restart exchange).Awaits bus identity (Observes []) := by
  intro line s
  rw [run, waits]
  generalize bus.restart line = answer
  obtain ⟨_ | ⟨⟩, after⟩ := answer
  · exact ⟨.done, nofun⟩
  · exact awaits after s

theorem Awaits.serve {code : UInt8} {payload : List UInt8}
    {next : Except Fault Response → Exchange α}
    (awaits : ∀ result, (next result).Awaits bus identity post) :
    (Exchange.serve code payload next).Awaits bus identity post :=
  fun _ s => awaits (Service.handle identity code payload s).result _ _

theorem Awaits.diagnose {kind : DiagnosticKind} {next : List UInt8 → Exchange α}
    (awaits : ∀ reply, (next reply).Awaits bus identity post) :
    (Exchange.diagnose kind next).Awaits bus identity post :=
  fun _ s => awaits (Service.diagnose identity kind s).result _ _

end Exchange

end Animatronic
