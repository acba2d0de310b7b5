import Animatronic.Service

/-!
# The faults of the service

What the service finds wrong with a request is the sender's to know: each of its faults has a code,
which goes out in an error reply.  None of them is a fault of the bus, after which the board would
restart it.
-/

namespace Animatronic

namespace Service

variable {fault : Fault} {s : Scheduler}

/-- A fault that says that there is no room for a batch. -/
def IsFull (fault : Fault) : Prop := fault = .queueFull ∨ fault = .poolExhausted

theorem IsFull.reported (full : IsFull fault) : fault.code.isSome = true := by
  rcases full with rfl | rfl <;> rfl

theorem isFull_of_acquire {capacity : Nat} {pool : Pool capacity} {batch : Batch}
    (refused : pool.acquire batch = .error fault) : IsFull fault := by
  unfold Pool.acquire at refused
  split at refused
  · cases refused
  · exact Or.inr (Except.error.inj refused).symm

theorem isFull_of_enqueue {batch : Batch} (refused : (s.enqueue batch).1 = .error fault) :
    IsFull fault := by
  unfold Scheduler.enqueue at refused
  split at refused
  · split at refused
    · cases refused
    · next failed => exact Except.error.inj refused ▸ isFull_of_acquire failed
  · exact Or.inl (Except.error.inj refused).symm

theorem isFull_of_enqueueEach {done : Nat} {batches : List Batch}
    (refused : (s.enqueueEach done batches).1 = .error fault) : IsFull fault := by
  induction batches generalizing s done with
  | nil => cases refused
  | cons batch rest ih =>
    unfold Scheduler.enqueueEach at refused
    split at refused
    · exact ih refused
    · next failed =>
      exact Except.error.inj refused ▸ isFull_of_enqueue (congrArg Prod.fst failed)

theorem isFull_of_enqueueAll {batches : List Batch}
    (refused : (s.enqueueAll batches).1 = .error fault) : IsFull fault := by
  unfold Scheduler.enqueueAll at refused
  split at refused
  · exact Or.inl (Except.error.inj refused).symm
  · split at refused
    · exact Or.inr (Except.error.inj refused).symm
    · exact isFull_of_enqueueEach refused

/-- A self-test is refused only for want of room. -/
theorem isFull_of_selfTest {identity : Identity}
    (refused : (selfTest identity s).result = .error fault) : IsFull fault := by
  unfold selfTest at refused
  split at refused
  · cases refused
  · next failed =>
    rw [← Except.error.inj refused]
    exact isFull_of_enqueueAll (congrArg Prod.fst failed)

theorem reported_of_setCoefficients {payload : List UInt8}
    (refused : (setCoefficients payload s).result = .error fault) : fault.code.isSome = true := by
  unfold setCoefficients at refused
  split at refused
  · next malformed =>
    unfold Coefficients.parse at malformed
    split at malformed
    · cases malformed
    · cases malformed
    · rw [← Except.error.inj refused, ← Except.error.inj malformed]
      rfl
  · split at refused
    · next failed =>
      unfold Scheduler.setCoefficients at failed
      split at failed
      · cases failed
      · next missing =>
        unfold Renderer.setCoefficients at missing
        split at missing
        · cases missing
        · rw [← Except.error.inj refused, ← Except.error.inj (Prod.mk.inj failed).1,
            ← Except.error.inj missing]
          rfl
    · cases refused

theorem reported_of_parse {payload : List UInt8} (malformed : Batch.parse payload = .error fault) :
    fault.code.isSome = true := by
  unfold Batch.parse at malformed
  split at malformed
  · dsimp only at malformed
    split at malformed
    · rw [← Except.error.inj malformed]
      rfl
    · unfold Batch.build at malformed
      split at malformed
      · cases malformed
      · rw [← Except.error.inj malformed]
        rfl
  · rw [← Except.error.inj malformed]
    rfl

theorem reported_of_setSetpoints {payload : List UInt8}
    (refused : (setSetpoints payload s).result = .error fault) : fault.code.isSome = true := by
  unfold setSetpoints at refused
  split at refused
  · next malformed =>
    rw [← Except.error.inj refused]
    exact reported_of_parse malformed
  · split at refused
    · next failed =>
      rw [← Except.error.inj refused]
      exact (isFull_of_enqueue (congrArg Prod.fst failed)).reported
    · cases refused

theorem reported_of_sleep (refused : (sleep s).result = .error fault) :
    fault.code.isSome = true := by
  unfold sleep at refused
  split at refused
  · next failed =>
    rw [← Except.error.inj refused]
    unfold Scheduler.halt at failed
    dsimp only at failed
    split at failed
    · cases failed
    · next full =>
      rw [← Except.error.inj (Prod.mk.inj failed).1]
      exact (isFull_of_acquire full).reported
  · cases refused

/-- Every fault that the service finds is one that is reported to the sender. -/
theorem reported_of_handle {identity : Identity} {code : UInt8} {payload : List UInt8}
    (refused : (handle identity code payload s).result = .error fault) :
    fault.code.isSome = true := by
  unfold handle at refused
  split at refused
  · next unknown =>
    unfold MessageType.ofCode at unknown
    split at unknown
    · cases unknown
    · rw [← Except.error.inj refused, ← Except.error.inj unknown]
      rfl
  · split at refused
    · cases refused
    · dsimp only at refused
      cases tested : (selfTest identity s).result with
      | ok reply =>
        rw [tested] at refused
        cases refused
      | error refusal =>
        rw [tested] at refused
        rw [← Except.error.inj refused]
        exact (isFull_of_selfTest tested).reported
    · cases refused
    · exact reported_of_setCoefficients refused
    · exact reported_of_setSetpoints refused
    · exact reported_of_sleep refused
    all_goals
      rw [← Except.error.inj refused]
      rfl

end Service

end Animatronic
