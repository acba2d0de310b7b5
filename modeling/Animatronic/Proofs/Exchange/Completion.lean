import Animatronic.Proofs.Exchange.Effect

/-!
# Programs on any bus

A bus may deliver what it likes, and any read or write may fail, as long as it answers.
`Exchange.Completes` says that a program comes to its end on such a bus, and what holds of its
effects and its result however the bus has behaved.

Each step of a program has a lemma here: a read or a write has to be followed both ways.
-/

namespace Animatronic

variable {Line α : Type} {bus : Bus Line} {identity : Identity}

/-- Every read and every restart comes to an end, one way or the other. -/
structure Bus.Answers (bus : Bus Line) : Prop where
  read : ∀ length limit line, (bus.read length limit line).1.isSome = true
  restart : ∀ line, (bus.restart line).1.isSome = true

namespace Exchange

variable {exchange : Exchange α} {post : List Effect → α → Prop}

/-- Whatever comes in and whatever state the scheduler is in, the program ends, and its effects and
its result are as told. -/
def Completes (exchange : Exchange α) (bus : Bus Line) (identity : Identity)
    (post : List Effect → α → Prop) : Prop :=
  ∀ line s, ∃ result, (exchange.run bus identity line s).1 = .finished result ∧
    post (exchange.effects bus identity line s) result

theorem Completes.mono {weaker : List Effect → α → Prop}
    (completes : exchange.Completes bus identity post)
    (weakens : ∀ effects result, post effects result → weaker effects result) :
    exchange.Completes bus identity weaker := by
  intro line s
  obtain ⟨result, finished, holds⟩ := completes line s
  exact ⟨result, finished, weakens _ _ holds⟩

theorem completes_done {result : α} (holds : post [] result) :
    (done result).Completes bus identity post :=
  fun _ _ => ⟨result, rfl, holds⟩

theorem Completes.note (completes : exchange.Completes bus identity post) (notice : Notice) :
    (Exchange.note notice exchange).Completes bus identity post :=
  fun line s => completes (bus.note notice line) s

theorem Completes.read (answers : bus.Answers) {length : Nat} {limit : Option Microseconds}
    {next : Except BusFault (Bytes length) → Exchange α}
    (complete : ∀ bytes, (next (.ok bytes)).Completes bus identity
      fun effects => post (.read length true :: effects))
    (failed : ∀ fault, (next (.error fault)).Completes bus identity
      fun effects => post (.read length false :: effects)) :
    (Exchange.read length limit next).Completes bus identity post := by
  intro line s
  have answered := answers.read length limit line
  rw [run, effects]
  generalize bus.read length limit line = answer at answered ⊢
  obtain ⟨_ | result | bytes, after⟩ := answer
  · cases answered
  · exact failed result after s
  · exact complete bytes after s

theorem Completes.write {bytes : List UInt8} {next : Except BusFault Unit → Exchange α}
    (complete : (next (.ok ())).Completes bus identity
      fun effects => post (.wrote bytes true :: effects))
    (failed : ∀ fault, (next (.error fault)).Completes bus identity
      fun effects => post (.wrote bytes false :: effects)) :
    (Exchange.write bytes next).Completes bus identity post := by
  intro line s
  rw [run, effects]
  generalize bus.write bytes line = answer
  obtain ⟨result | ⟨⟩, after⟩ := answer
  · exact failed result after s
  · exact complete after s

theorem Completes.restart (answers : bus.Answers)
    (completes : exchange.Completes bus identity fun effects => post (.restarted :: effects)) :
    (Exchange.restart exchange).Completes bus identity post := by
  intro line s
  have answered := answers.restart line
  rw [run, effects]
  generalize bus.restart line = answer at answered ⊢
  obtain ⟨_ | ⟨⟩, after⟩ := answer
  · cases answered
  · exact completes after s

theorem Completes.serve {code : UInt8} {payload : List UInt8}
    {next : Except Fault Response → Exchange α}
    (completes : ∀ s, (next (Service.handle identity code payload s).result).Completes bus identity
      fun effects => post (.served code payload :: effects)) :
    (Exchange.serve code payload next).Completes bus identity post :=
  fun _ s => completes s _ _

theorem Completes.diagnose {kind : DiagnosticKind} {next : List UInt8 → Exchange α}
    (completes : ∀ s, (next (Service.diagnose identity kind s).result).Completes bus identity
      fun effects => post (.diagnosed kind :: effects)) :
    (Exchange.diagnose kind next).Completes bus identity post :=
  fun _ s => completes s _ _

end Exchange

end Animatronic
