import Animatronic.Proofs.Playlist.Simulation

/-!
# Room for every batch

Eight batches may wait and two more are next and current, so ten slots are enough as long as every
slot in use belongs to one of these places.  This is so in every state that a history leads to, and
it leaves a full queue as the only reason to refuse a batch: the pool never runs out, the emergency
stop is never refused, and a group of batches is accepted as a whole or not at all.
-/

namespace Animatronic

namespace Scheduler

variable {s : Scheduler}

/-! ## One batch -/

namespace Accounted

/-- A batch is accepted into a queue that is not full, behind all that waits. -/
theorem enqueue_of_room (accounted : s.Accounted) (room : s.queued < queueDepth) (batch : Batch) :
    ∃ handle pool, s.enqueue batch =
      (.ok (), { s with pool := pool, queue := s.queue ++ [handle] }) := by
  obtain ⟨handle, pool, stored⟩ := accounted.acquire_ok room batch
  refine ⟨handle, pool, ?_⟩
  rw [enqueue, if_pos room, stored]

theorem enqueue (accounted : s.Accounted) (batch : Batch) : (s.enqueue batch).2.Accounted :=
  (Tracks.enqueue ⟨accounted, rfl⟩ batch).2.toAccounted

end Accounted

theorem enqueue_of_full (full : s.queued = queueDepth) (batch : Batch) :
    s.enqueue batch = (.error .queueFull, s) := by
  rw [enqueue, if_neg (by omega)]

/-! ## Groups of batches -/

/-- As long as there is room, enqueueing a group is enqueueing its batches one after the other. -/
theorem Accounted.enqueueEach_eq_run (accounted : s.Accounted) (done : Nat) {batches : List Batch}
    (room : s.queued + batches.length ≤ queueDepth) :
    s.enqueueEach done batches = (.ok (), s.run (batches.map .enqueue)) ∧
      (s.trace (batches.map .enqueue)).map Prod.fst =
        List.replicate batches.length .accepted := by
  induction batches generalizing s done with
  | nil => exact ⟨rfl, rfl⟩
  | cons batch rest ih =>
    rw [List.length_cons] at room
    obtain ⟨handle, pool, accepted⟩ := accounted.enqueue_of_room (by omega) batch
    have later := accounted.enqueue batch
    have applied : s.apply (.enqueue batch) = (.accepted, (s.enqueue batch).2) := by
      rw [apply, accepted]
      rfl
    have room : (s.enqueue batch).2.queued + rest.length ≤ queueDepth := by
      rw [accepted, queued, List.length_append, List.length_singleton, ← queued]
      omega
    rw [accepted] at later applied room
    obtain ⟨group, answers⟩ := ih later (done + 1) room
    constructor
    · rw [enqueueEach, accepted, List.map_cons, run, List.foldl_cons, applied]
      exact group
    · rw [List.map_cons, trace, applied, List.map_cons, answers]
      rfl

/-- The pool has a slot for every batch that the queue has a place for. -/
theorem Accounted.room_le (accounted : s.Accounted) :
    queueDepth - s.queued ≤ poolCapacity - s.batchesInUse := by
  have few := s.length_handles_le
  rw [accounted.batchesInUse_eq, poolCapacity]
  omega

theorem enqueueAll_of_long {batches : List Batch} (long : queueDepth - s.queued < batches.length) :
    s.enqueueAll batches = (.error .queueFull, s) :=
  if_pos long

theorem Accounted.enqueueAll_of_fits (accounted : s.Accounted) {batches : List Batch}
    (fits : batches.length ≤ queueDepth - s.queued) :
    s.enqueueAll batches = (.ok (), s.run (batches.map .enqueue)) ∧
      (s.trace (batches.map .enqueue)).map Prod.fst =
        List.replicate batches.length .accepted := by
  have room := accounted.room_le
  have short := accounted.short
  rw [enqueueAll, if_neg (by omega), if_neg (by omega)]
  exact accounted.enqueueEach_eq_run 0 (by omega)

/-! ## All requests -/

/-- Without a pool, nothing can be refused for want of a slot. -/
theorem Accounted.answer_ne_poolExhausted (accounted : s.Accounted) (operation : Operation) :
    (s.apply operation).1 ≠ .refused .poolExhausted := by
  rw [(Tracks.apply ⟨accounted, rfl⟩ operation).1]
  intro refused
  cases operation with
  | start renderer => cases refused
  | stop => cases refused
  | enqueue batch =>
    simp only [Playlist.apply, Playlist.enqueue] at refused
    split at refused <;> cases refused
  | enqueueAll batches =>
    simp only [Playlist.apply, Playlist.enqueueAll] at refused
    split at refused <;> cases refused
  | halt => cases refused
  | setCoefficients coefficients =>
    simp only [Playlist.apply, Playlist.setCoefficients] at refused
    cases renderer : s.playlist.renderer <;> rw [renderer] at refused <;> cases refused
  | filter sample => cases refused
  | tick sample => cases refused

/-- The number of slots in use, by places. -/
theorem Accounted.batchesInUse_eq_add (accounted : s.Accounted) :
    s.batchesInUse = s.queued + s.next.toList.length + s.current.toList.length := by
  rw [accounted.batchesInUse_eq, handles, List.length_append, List.length_append, queued]
  omega

/-- What holds of the slots of a scheduler, and of its requests because of it. -/
structure HasRoom (s : Scheduler) : Prop where
  /-- No two places share a slot. -/
  distinct : s.handles.Nodup
  inside : ∀ handle ∈ s.handles, handle.index < poolCapacity
  /-- The slots in use are those of the queue, the next and the current batch. -/
  occupied : ∀ handle, s.pool.isUsed handle = true ↔ handle ∈ s.handles
  count : s.batchesInUse =
    s.queued + (if s.next.isSome then 1 else 0) + (if s.current.isSome then 1 else 0)
  short : s.queued ≤ queueDepth
  unexhausted : ∀ operation, (s.apply operation).1 ≠ .refused .poolExhausted
  halts : s.halt.1 = .ok ()
  /-- One batch is refused exactly if the queue is full. -/
  single : ∀ batch,
    (s.queued < queueDepth → (s.enqueue batch).1 = .ok ()) ∧
      (s.queued = queueDepth → s.enqueue batch = (.error .queueFull, s))
  /-- A group is refused exactly if it is longer than what is left of the queue; otherwise its
  batches are enqueued one after the other, and each of them is accepted. -/
  group : ∀ batches,
    (batches.length ≤ queueDepth - s.queued →
        s.enqueueAll batches = (.ok (), s.run (batches.map .enqueue)) ∧
          (s.trace (batches.map .enqueue)).map Prod.fst =
            List.replicate batches.length .accepted) ∧
      (queueDepth - s.queued < batches.length →
        s.enqueueAll batches = (.error .queueFull, s))

/-- Whatever has happened to a scheduler, its slots are accounted for and it has room for every
batch that its queue has a place for. -/
theorem hasRoom (reachable : s.Reachable) : s.HasRoom := by
  have accounted := reachable.tracks.toAccounted
  refine
    { distinct := accounted.held.distinct
      inside := ?_
      occupied := fun handle => (accounted.held.mem_iff handle).symm
      count := ?_
      short := accounted.short
      unexhausted := accounted.answer_ne_poolExhausted
      halts := reachable.tracks.halt.1
      single := fun batch => ⟨fun room => ?_, fun full => enqueue_of_full full batch⟩
      group := fun batches => ⟨accounted.enqueueAll_of_fits, enqueueAll_of_long⟩ }
  · intro handle mem
    exact Pool.index_lt_of_isUsed ((accounted.held.mem_iff handle).mp mem)
  · rw [accounted.batchesInUse_eq_add]
    cases s.next <;> cases s.current <;> rfl
  · obtain ⟨handle, pool, accepted⟩ := accounted.enqueue_of_room room batch
    rw [accepted]

/-- With a batch playing, one in its delay and eight behind them all slots are in use, and a
further batch is refused for the queue. -/
theorem hasRoom_when_all_slots_are_used :
    ∃ s : Scheduler, s.batchesInUse = poolCapacity ∧ s.halt.1 = .ok () ∧
      s.enqueueAll [.stop] = (.error .queueFull, s) := by
  let batch : Batch := ⟨5, Batch.forever, [⟨3, 7⟩], by decide⟩
  let eight := Operation.enqueueAll (List.replicate 8 batch)
  let seven : List Operation := List.replicate 7 (.tick ⟨0⟩)
  let s := (initial .vibration).run
    (.start .vibration :: eight :: seven ++ [.enqueue batch, .enqueue batch])
  have room : s.HasRoom := hasRoom ⟨_, _, rfl⟩
  exact ⟨s, by decide, room.halts, (room.group [.stop]).2 (by decide)⟩

end Scheduler

end Animatronic
