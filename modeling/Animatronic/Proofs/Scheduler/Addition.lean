import Animatronic.Proofs.Scheduler.Capacity

/-!
# Batches added to the queue

`Scheduler.Appends` says that some batches have come to the end of the queue and that nothing else
has happened: each of them is in a slot of its own that was free before, and every other slot and
every other part of the scheduler is as it was.  This is what becomes of batches that are accepted,
one by one or as a group.
-/

namespace Animatronic

namespace Scheduler

/-- The batches wait behind all that waited before, and nothing else has changed but the slots that
they are in. -/
structure Appends (s : Scheduler) (batches : List Batch) (after : Scheduler) : Prop where
  room : s.queued + batches.length ≤ queueDepth
  playlist_eq : after.playlist = { s.playlist with queue := s.playlist.queue ++ batches }
  slots : ∃ handles,
    after = { s with pool := after.pool, queue := s.queue ++ handles } ∧
      handles.length = batches.length ∧ handles.Nodup ∧
      (∀ handle ∈ handles, s.pool.isUsed handle = false ∧ after.pool.isUsed handle = true) ∧
      ∀ handle ∉ handles, after.pool.slots[handle.index]? = s.pool.slots[handle.index]?

variable {s between after : Scheduler} {batch : Batch} {batches : List Batch}

theorem Accounted.appends_nil (accounted : s.Accounted) : s.Appends [] s where
  room := accounted.short
  playlist_eq := by rw [List.append_nil]
  slots := by
    refine ⟨[], ?_, rfl, List.nodup_nil, nofun, fun _ _ => rfl⟩
    rw [List.append_nil]

/-- A slot that is as it was is in use if it was. -/
theorem isUsed_eq_of_slot {pool later : Pool poolCapacity} {handle : Handle}
    (same : later.slots[handle.index]? = pool.slots[handle.index]?) :
    later.isUsed handle = pool.isUsed handle := by
  rw [Pool.isUsed, same, Pool.isUsed]

theorem Appends.cons (first : s.Appends [batch] between)
    (rest : between.Appends batches after) : s.Appends (batch :: batches) after := by
  obtain ⟨taken, added, one, -, fresh, kept⟩ := first.slots
  obtain ⟨handle, rfl⟩ := List.length_eq_one_iff.mp one
  obtain ⟨handles, later, length, distinct, free, same⟩ := rest.slots
  have queue : between.queue = s.queue ++ [handle] := congrArg Scheduler.queue added
  have used : between.pool.isUsed handle = true := (fresh handle (List.mem_singleton_self _)).2
  have new : handle ∉ handles := by
    intro mem
    rw [(free handle mem).1] at used
    cases used
  have apart : ∀ other ∈ handles, other ∉ [handle] := by
    rintro other mem only
    rw [List.mem_singleton.mp only] at mem
    exact new mem
  refine ⟨?_, ?_, handle :: handles, ?_, congrArg Nat.succ length,
    List.nodup_cons.mpr ⟨new, distinct⟩, ?_, ?_⟩
  · have room := rest.room
    rw [queued, queue, List.length_append, List.length_singleton, ← queued] at room
    rw [List.length_cons]
    omega
  · rw [rest.playlist_eq, first.playlist_eq]
    simp only [List.append_assoc, List.singleton_append]
  · rw [later, added]
    simp only [List.append_assoc, List.singleton_append]
  · intro other mem
    rcases List.mem_cons.mp mem with rfl | behind
    · exact ⟨(fresh other (List.mem_singleton_self _)).1,
        (isUsed_eq_of_slot (same other new)).trans used⟩
    · refine ⟨?_, (free other behind).2⟩
      rw [← isUsed_eq_of_slot (kept other (apart other behind))]
      exact (free other behind).1
  · intro other missing
    rw [List.mem_cons, not_or] at missing
    rw [same other missing.2, kept other (by simpa using missing.1)]

namespace Accounted

/-- A batch is added to a queue that is not full. -/
theorem appends_enqueue (accounted : s.Accounted) (room : s.queued < queueDepth) (batch : Batch) :
    ∃ after, s.enqueue batch = (.ok (), after) ∧ s.Appends [batch] after := by
  obtain ⟨handle, pool, stored⟩ := accounted.acquire_ok room batch
  obtain ⟨inside, free, taken⟩ := Pool.of_acquire stored
  have accepted : s.enqueue batch =
      (.ok (), { s with pool := pool, queue := s.queue ++ [handle] }) := by
    rw [Scheduler.enqueue, if_pos room, stored]
  have tracks := (Tracks.enqueue ⟨accounted, rfl⟩ batch).2.playlist_eq
  rw [accepted, Playlist.enqueue, if_pos (accounted.length_queue ▸ room)] at tracks
  refine ⟨_, accepted, room, tracks, [handle], rfl, rfl, List.nodup_singleton _, ?_, ?_⟩
  · intro other mem
    rw [List.mem_singleton.mp mem]
    refine ⟨free, ?_⟩
    rw [taken]
    exact s.pool.isUsed_set_self _ inside
  · intro other missing
    have distinct : handle.index ≠ other.index := by
      intro index
      exact missing (List.mem_singleton.mpr (congrArg Handle.mk index.symm))
    rw [taken]
    exact List.getElem?_set_ne distinct

theorem appends_run (accounted : s.Accounted) (room : s.queued + batches.length ≤ queueDepth) :
    s.Appends batches (s.run (batches.map .enqueue)) := by
  induction batches generalizing s with
  | nil => exact accounted.appends_nil
  | cons batch rest ih =>
    rw [List.length_cons] at room
    obtain ⟨between, accepted, added⟩ := accounted.appends_enqueue (by omega) batch
    have later := accounted.enqueue batch
    rw [accepted] at later
    have longer : between.queued = s.queued + 1 := by
      rw [← later.length_queue, added.playlist_eq, List.length_append, accounted.length_queue]
      rfl
    have applied : s.run ((batch :: rest).map .enqueue) = between.run (rest.map .enqueue) := by
      rw [List.map_cons, run, List.foldl_cons, apply, accepted]
      rfl
    rw [applied]
    exact added.cons (ih later (by omega))

/-- A group is added to a queue that has room for all of it. -/
theorem appends_enqueueAll (accounted : s.Accounted)
    (fits : batches.length ≤ queueDepth - s.queued) :
    ∃ after, s.enqueueAll batches = (.ok (), after) ∧ s.Appends batches after := by
  have short := accounted.short
  exact ⟨_, (accounted.enqueueAll_of_fits fits).1, accounted.appends_run (by omega)⟩

end Accounted

end Scheduler

end Animatronic
