import Animatronic.Proofs.Playlist.Basic
import Animatronic.Proofs.Pool.Occupancy
import Animatronic.Proofs.Scheduler.Frame

/-!
# The pool makes no difference

`Scheduler.playlist` looks up every handle of a scheduler.  As long as the handles in the queue, in
the next and in the current place are pairwise different and are exactly those of the slots in use
(`Scheduler.Accounted`), no request and no phase of a tick can tell the scheduler from that
playlist: `Scheduler.Tracks` is kept by all of them, and both sides give the same answer.
`trace_eq_playlist` follows a whole history.
-/

namespace Animatronic

namespace Scheduler

/-- The handles in circulation. -/
def handles (s : Scheduler) : List Handle := s.current.toList ++ (s.next.toList ++ s.queue)

/-- Every slot in use belongs to one place of the scheduler, and the queue is within its bounds. -/
structure Accounted (s : Scheduler) : Prop where
  held : s.pool.Holds s.handles
  short : s.queued ≤ queueDepth

/-- The scheduler with every handle replaced by the batch in its slot. -/
def playlist (s : Scheduler) : Playlist where
  queue := s.queue.filterMap s.pool.get?
  current := s.currentBatch
  next := s.next.bind s.pool.get?
  delay := s.delay
  loopsLeft := s.loopsLeft
  index := s.index
  duration := s.duration
  target := s.target
  running := s.running
  active := s.active
  renderer := s.renderer
  filtered := s.filtered
  rendered := s.rendered

/-- The scheduler is accounted for, and is the given playlist once its handles are looked up. -/
structure Tracks (s : Scheduler) (p : Playlist) : Prop extends Accounted s where
  playlist_eq : s.playlist = p

variable {s : Scheduler} {p : Playlist}

/-! ## Facts about an accounted scheduler -/

theorem length_handles_le (s : Scheduler) : s.handles.length ≤ s.queued + 2 := by
  have current : s.current.toList.length ≤ 1 := by cases s.current <;> simp
  have next : s.next.toList.length ≤ 1 := by cases s.next <;> simp
  simp only [handles, List.length_append, queued]
  omega

namespace Accounted

theorem batchesInUse_eq (accounted : s.Accounted) : s.batchesInUse = s.handles.length :=
  accounted.held.inUse_eq

/-- Every waiting handle can be looked up. -/
theorem length_queue (accounted : s.Accounted) : s.playlist.queue.length = s.queued := by
  have known : ∀ handle ∈ s.queue, (s.pool.get? handle).isSome := by
    intro handle mem
    have circulating : handle ∈ s.handles :=
      List.mem_append_right _ (List.mem_append_right _ mem)
    obtain ⟨batch, found⟩ := accounted.held.get?_of_mem circulating
    rw [found]
    rfl
  rw [playlist, List.length_filterMap_eq_countP, List.countP_eq_length.mpr known]
  rfl

theorem next_isSome (accounted : s.Accounted) : s.playlist.next.isSome = s.next.isSome := by
  cases waiting : s.next with
  | none => simp [playlist, waiting]
  | some handle =>
    have circulating : handle ∈ s.handles := by simp [handles, waiting]
    obtain ⟨batch, found⟩ := accounted.held.get?_of_mem circulating
    simp [playlist, waiting, found]

theorem current_isSome (accounted : s.Accounted) :
    s.playlist.current.isSome = s.current.isSome := by
  cases playing : s.current with
  | none => simp [playlist, currentBatch, playing]
  | some handle =>
    have circulating : handle ∈ s.handles := by simp [handles, playing]
    obtain ⟨batch, found⟩ := accounted.held.get?_of_mem circulating
    simp [playlist, currentBatch, playing, found]

end Accounted

theorem Tracks.glance_eq (tracks : s.Tracks p) : s.glance = p.glance := by
  obtain ⟨accounted, rfl⟩ := tracks
  rw [Playlist.glance, accounted.length_queue]
  rfl

theorem tracks_initial (renderer : Renderer) :
    (initial renderer).Tracks (Playlist.initial renderer) :=
  ⟨⟨Pool.Holds.empty poolCapacity, Nat.zero_le _⟩, rfl⟩

/-! ## Giving batches up -/

/-- Only what is read through the handles in circulation matters. -/
theorem playlist_set_pool {after : Pool poolCapacity}
    (same : ∀ handle ∈ s.handles, after.get? handle = s.pool.get? handle) :
    { s with pool := after }.playlist = s.playlist := by
  have current : s.current.bind after.get? = s.current.bind s.pool.get? := by
    cases playing : s.current with
    | none => rfl
    | some handle => exact same handle (by simp [handles, playing])
  have next : s.next.bind after.get? = s.next.bind s.pool.get? := by
    cases waiting : s.next with
    | none => rfl
    | some handle => exact same handle (by simp [handles, waiting])
  have queue : s.queue.filterMap after.get? = s.queue.filterMap s.pool.get? := by
    refine List.filterMap_congr fun handle mem => same handle ?_
    exact List.mem_append_right _ (List.mem_append_right _ mem)
  simp only [playlist, currentBatch, current, next, queue]

theorem Tracks.releaseCurrent (tracks : s.Tracks p) :
    s.releaseCurrent.Tracks { p with current := none } := by
  obtain ⟨⟨held, short⟩, rfl⟩ := tracks
  unfold Scheduler.releaseCurrent
  cases playing : s.current with
  | none =>
    refine ⟨⟨held, short⟩, ?_⟩
    simp [playlist, currentBatch, playing]
  | some handle =>
    have circulating : s.handles = handle :: { s with current := none }.handles := by
      simp [handles, playing]
    rw [circulating] at held
    have same := playlist_set_pool (s := { s with current := none })
      fun other mem => held.get?_release mem
    exact ⟨⟨held.release, short⟩, same⟩

theorem Tracks.releasePending (tracks : s.Tracks p) :
    s.releasePending.Tracks { p with queue := [], next := none } := by
  obtain ⟨⟨held, short⟩, rfl⟩ := tracks
  have order : s.handles.Perm
      ((s.queue ++ s.next.toList) ++ { s with queue := [], next := none }.handles) := by
    simp only [handles, Option.toList_none, List.append_nil]
    exact List.perm_append_comm.trans (List.perm_append_comm.append_right _)
  obtain ⟨rest, same⟩ := (held.perm order).releaseAll
  exact ⟨⟨rest, Nat.zero_le _⟩, playlist_set_pool (s := { s with queue := [], next := none }) same⟩

theorem Tracks.stop (tracks : s.Tracks p) : s.stop.Tracks p.stop := by
  have cleared := tracks.releasePending.releaseCurrent
  refine ⟨⟨cleared.held, cleared.short⟩, ?_⟩
  exact congrArg
    (fun q : Playlist =>
      { q with
        delay := 0
        loopsLeft := 0
        index := 0
        duration := 0
        target := 0
        active := false
        running := false
        rendered := none })
    cleared.playlist_eq

/-! ## Accepting batches -/

/-- An answer and a scheduler go with an answer and a playlist. -/
def Agree {α : Type} (x : α × Scheduler) (y : α × Playlist) : Prop :=
  x.1 = y.1 ∧ x.2.Tracks y.2

/-- As long as the queue is not full, the pool has a slot for another batch. -/
theorem Accounted.acquire_ok (accounted : s.Accounted) (room : s.queued < queueDepth)
    (batch : Batch) : ∃ handle after, s.pool.acquire batch = .ok (handle, after) := by
  refine accounted.held.acquire_ok ?_ batch
  have few := s.length_handles_le
  simp only [poolCapacity]
  omega

theorem Tracks.enqueue (tracks : s.Tracks p) (batch : Batch) :
    Agree (s.enqueue batch) (p.enqueue batch) := by
  obtain ⟨accounted, rfl⟩ := tracks
  unfold Scheduler.enqueue Playlist.enqueue
  rw [accounted.length_queue]
  by_cases room : s.queued < queueDepth
  · rw [if_pos room, if_pos room]
    obtain ⟨handle, after, stored⟩ := accounted.acquire_ok room batch
    rw [stored]
    have order : (handle :: s.handles).Perm
        (s.current.toList ++ (s.next.toList ++ (s.queue ++ [handle]))) := by
      rw [← List.append_assoc s.next.toList, ← List.append_assoc s.current.toList]
      exact (List.perm_append_singleton handle s.handles).symm
    have same := playlist_set_pool fun other mem => accounted.held.get?_acquire stored mem
    refine ⟨rfl, ⟨(accounted.held.acquire stored).perm order, ?_⟩, ?_⟩
    · simp only [queued, List.length_append, List.length_singleton]
      exact room
    · rw [← same]
      simp only [playlist, currentBatch, List.filterMap_append, List.filterMap_cons,
        List.filterMap_nil, Pool.get?_of_acquire stored]
  · rw [if_neg room, if_neg room]
    exact ⟨rfl, accounted, rfl⟩

/-- A group that fits is accepted batch by batch. -/
theorem Tracks.enqueueEach (tracks : s.Tracks p) (done : Nat) (batches : List Batch)
    (room : s.queued + batches.length ≤ queueDepth) :
    Agree (s.enqueueEach done batches)
      ((.ok (), { p with queue := p.queue ++ batches }) : Except Fault Unit × Playlist) := by
  induction batches generalizing s p done with
  | nil => simpa [Scheduler.enqueueEach, Agree] using tracks
  | cons batch rest ih =>
    rw [List.length_cons] at room
    have space : s.queued < queueDepth := by omega
    obtain ⟨answer, after⟩ := tracks.enqueue batch
    have length : p.queue.length = s.queued := by
      rw [← tracks.playlist_eq, tracks.length_queue]
    rw [Playlist.enqueue, length, if_pos space] at answer after
    unfold Scheduler.enqueueEach
    generalize s.enqueue batch = accepted at answer after
    obtain ⟨result, s'⟩ := accepted
    dsimp only at answer after
    subst answer
    have longer : s'.queued = s.queued + 1 := by
      rw [← after.length_queue, after.playlist_eq]
      simp [length]
    have next := ih after (done + 1) (by omega)
    simpa using next

theorem Tracks.enqueueAll (tracks : s.Tracks p) (batches : List Batch) :
    Agree (s.enqueueAll batches) (p.enqueueAll batches) := by
  have length : p.queue.length = s.queued := by
    rw [← tracks.playlist_eq, tracks.length_queue]
  have short := tracks.short
  unfold Scheduler.enqueueAll Playlist.enqueueAll
  rw [length]
  by_cases room : s.queued + batches.length ≤ queueDepth
  · have few := s.length_handles_le
    rw [← tracks.batchesInUse_eq] at few
    rw [if_pos room, if_neg (by omega), if_neg (by simp only [poolCapacity]; omega)]
    exact tracks.enqueueEach 0 batches room
  · rw [if_neg room, if_pos (by omega)]
    exact ⟨rfl, tracks⟩

theorem Tracks.halt (tracks : s.Tracks p) : Agree s.halt p.halt := by
  have cleared := tracks.releasePending
  have alone : s.releasePending.handles = s.current.toList := by
    simp [handles, Scheduler.releasePending]
  have room : s.releasePending.handles.length < poolCapacity := by
    rw [alone]
    cases s.current <;> simp [poolCapacity, queueDepth]
  obtain ⟨handle, after, stored⟩ := cleared.held.acquire_ok room .stop
  simp only [Scheduler.halt, stored]
  have order : (handle :: s.releasePending.handles).Perm (s.current.toList ++ [handle]) := by
    rw [alone]
    exact (List.perm_append_singleton handle s.current.toList).symm
  have same := playlist_set_pool fun other mem => cleared.held.get?_acquire stored mem
  rw [cleared.playlist_eq] at same
  refine ⟨rfl, ⟨(cleared.held.acquire stored).perm order, Nat.zero_le _⟩, ?_⟩
  have next := congrArg
    (fun q : Playlist => { q with next := some .stop, delay := 0 }) same
  refine Eq.trans ?_ next
  simp only [playlist, currentBatch, Option.bind_some, Pool.get?_of_acquire stored]

theorem Tracks.start (tracks : s.Tracks p) (renderer : Renderer) :
    (s.start renderer).Tracks (p.start renderer) := by
  obtain ⟨accounted, rfl⟩ := tracks
  exact ⟨⟨accounted.held, accounted.short⟩, rfl⟩

theorem Tracks.setCoefficients (tracks : s.Tracks p) (coefficients : Coefficients) :
    Agree (s.setCoefficients coefficients) (p.setCoefficients coefficients) := by
  obtain ⟨accounted, rfl⟩ := tracks
  unfold Scheduler.setCoefficients Playlist.setCoefficients
  have same : s.playlist.renderer = s.renderer := rfl
  rw [same]
  cases s.renderer.setCoefficients coefficients with
  | ok renderer => exact ⟨rfl, ⟨accounted.held, accounted.short⟩, rfl⟩
  | error fault => exact ⟨rfl, accounted, rfl⟩

/-! ## The phases of a tick -/

theorem Tracks.filter (tracks : s.Tracks p) (sample : Binary32) :
    (s.filter sample).Tracks (p.filter sample) := by
  obtain ⟨accounted, rfl⟩ := tracks
  unfold Scheduler.filter Playlist.filter
  have same : s.playlist.filtered = s.filtered := rfl
  rw [same]
  split
  · exact ⟨⟨accounted.held, accounted.short⟩, rfl⟩
  · exact ⟨accounted, rfl⟩

theorem Tracks.loadNext (tracks : s.Tracks p) : s.loadNext.Tracks p.loadNext := by
  obtain ⟨accounted, rfl⟩ := tracks
  have waiting := accounted.next_isSome
  unfold Scheduler.loadNext Playlist.loadNext
  cases next : s.next with
  | some handle =>
    rw [next, Option.isSome_some] at waiting
    obtain ⟨batch, found⟩ := Option.isSome_iff_exists.mp waiting
    rw [found]
    exact ⟨accounted, rfl⟩
  | none =>
    rw [next, Option.isSome_none, Option.isSome_eq_false_iff, Option.isNone_iff_eq_none] at waiting
    rw [waiting]
    cases queue : s.queue with
    | nil =>
      have empty : s.playlist.queue = [] := by simp [playlist, queue]
      rw [empty]
      exact ⟨accounted, rfl⟩
    | cons handle rest =>
      have circulating : handle ∈ s.handles := by simp [handles, queue]
      obtain ⟨batch, found⟩ := accounted.held.get?_of_mem circulating
      have front : s.playlist.queue = batch :: rest.filterMap s.pool.get? := by
        simp [playlist, queue, found]
      rw [front]
      refine ⟨⟨?_, ?_⟩, ?_⟩
      · have held := accounted.held
        rw [handles, next, queue] at held
        exact held
      · have short := accounted.short
        rw [queued, queue, List.length_cons] at short
        exact Nat.le_of_succ_le short
      · simp [playlist, currentBatch, found]

theorem Tracks.loadSetpoint (tracks : s.Tracks p) : s.loadSetpoint.Tracks p.loadSetpoint := by
  obtain ⟨accounted, rfl⟩ := tracks
  unfold Scheduler.loadSetpoint Playlist.loadSetpoint
  have same : s.playlist.current.bind (·.setpoints[s.playlist.index]?) = s.currentSetpoint := rfl
  rw [same]
  cases s.currentSetpoint with
  | none => exact ⟨accounted, rfl⟩
  | some setpoint => exact ⟨⟨accounted.held, accounted.short⟩, rfl⟩

theorem Tracks.promote (tracks : s.Tracks p) :
    s.promote.Tracks { p with current := p.next, next := none } := by
  have released := tracks.releaseCurrent
  obtain ⟨next, queue⟩ := s.pending_releaseCurrent
  refine ⟨⟨?_, ?_⟩, ?_⟩
  · have held := released.held
    rw [handles, s.current_releaseCurrent, next] at held
    exact held
  · exact released.short
  · have same := released.playlist_eq
    have read : s.next.bind s.releaseCurrent.pool.get? = p.next := by
      rw [← next]
      exact congrArg Playlist.next same
    refine Eq.trans ?_
      (congrArg (fun q : Playlist => { q with current := p.next, next := none }) same)
    simp only [playlist, currentBatch, Scheduler.promote, read, Option.bind_none]

theorem Tracks.switch (tracks : s.Tracks p) : s.switch.Tracks p.switch := by
  have promoted := tracks.promote
  have loops : s.promote.currentLoops = p.next.elim 0 (·.loops.toNat) :=
    congrArg (fun q : Playlist => q.current.elim 0 (·.loops.toNat)) promoted.playlist_eq
  have renderer : s.promote.renderer = p.renderer :=
    congrArg Playlist.renderer promoted.playlist_eq
  refine Tracks.loadSetpoint ⟨⟨promoted.held, promoted.short⟩, ?_⟩
  rw [loops, renderer]
  exact congrArg
    (fun q : Playlist =>
      { q with
        loopsLeft := p.next.elim 0 (·.loops.toNat)
        index := 0
        renderer := p.renderer.batchActivated })
    promoted.playlist_eq

theorem Tracks.isDue_eq (tracks : s.Tracks p) : s.isDue = p.isDue := by
  obtain ⟨accounted, rfl⟩ := tracks
  rw [Playlist.isDue, accounted.next_isSome]
  rfl

theorem Tracks.activate (tracks : s.Tracks p) : s.activate.Tracks p.activate := by
  unfold Scheduler.activate Playlist.activate
  rw [tracks.isDue_eq]
  by_cases due : p.isDue = true
  · rw [if_pos due, if_pos due]
    exact tracks.switch
  · rw [if_neg due, if_neg due]
    obtain ⟨accounted, rfl⟩ := tracks
    rw [accounted.next_isSome]
    split
    · exact ⟨⟨accounted.held, accounted.short⟩, rfl⟩
    · exact ⟨accounted, rfl⟩

theorem Tracks.releaseEmpty (tracks : s.Tracks p) : s.releaseEmpty.Tracks p.releaseEmpty := by
  have same : s.currentBatch = p.current := congrArg Playlist.current tracks.playlist_eq
  unfold Scheduler.releaseEmpty Playlist.releaseEmpty
  rw [same]
  split
  · exact tracks.releaseCurrent
  · exact tracks

theorem Tracks.prepare (tracks : s.Tracks p) : s.prepare.Tracks p.prepare :=
  tracks.loadNext.activate.releaseEmpty

theorem Tracks.hasUpdate_eq (tracks : s.Tracks p) : s.hasUpdate = p.hasUpdate := by
  obtain ⟨accounted, rfl⟩ := tracks
  rw [Playlist.hasUpdate, accounted.current_isSome]
  rfl

theorem Tracks.advance (tracks : s.Tracks p) : s.advance.Tracks p.advance := by
  obtain ⟨accounted, rfl⟩ := tracks
  by_cases holding : 0 < s.duration - 1
  · rw [advance_of_holding holding, Playlist.advance_of_holding (p := s.playlist) holding]
    exact ⟨⟨accounted.held, accounted.short⟩, rfl⟩
  · by_cases more : s.index + 1 < s.currentLength
    · rw [advance_of_more holding more, Playlist.advance_of_more (p := s.playlist) holding more]
      exact Tracks.loadSetpoint ⟨⟨accounted.held, accounted.short⟩, rfl⟩
    · rw [advance_of_last holding more, Playlist.advance_of_last (p := s.playlist) holding more]
      exact Tracks.loadSetpoint ⟨⟨accounted.held, accounted.short⟩, rfl⟩

theorem Tracks.render (tracks : s.Tracks p) : Agree s.render p.render := by
  obtain ⟨accounted, rfl⟩ := tracks
  refine ⟨rfl, Tracks.advance ⟨⟨accounted.held, accounted.short⟩, rfl⟩⟩

theorem Tracks.rest (tracks : s.Tracks p) : s.rest.Tracks p.rest := by
  have released := tracks.releaseCurrent
  refine ⟨⟨released.held, released.short⟩, ?_⟩
  exact congrArg (fun q : Playlist => { q with active := false }) released.playlist_eq

theorem Tracks.finish (tracks : s.Tracks p) : Agree s.finish p.finish := by
  unfold Scheduler.finish Playlist.finish
  rw [tracks.hasUpdate_eq]
  split
  · exact tracks.render
  · exact ⟨rfl, tracks.rest⟩

theorem Tracks.sense (tracks : s.Tracks p) (sample : Binary32) :
    (s.sense sample).Tracks (p.sense sample) := by
  have filtered := tracks.filter sample
  refine ⟨⟨filtered.held, filtered.short⟩, ?_⟩
  exact congrArg (fun q : Playlist => { q with rendered := none }) filtered.playlist_eq

theorem Tracks.running_eq (tracks : s.Tracks p) : s.running = p.running :=
  congrArg Playlist.running tracks.playlist_eq

theorem Tracks.tick (tracks : s.Tracks p) (sample : Binary32) :
    Agree (s.tick sample) (p.tick sample) := by
  have sensed := tracks.sense sample
  simp only [Scheduler.tick, Playlist.tick, sensed.running_eq]
  split
  · exact sensed.prepare.finish
  · exact ⟨rfl, sensed⟩

/-! ## Histories -/

theorem Tracks.apply (tracks : s.Tracks p) (operation : Operation) :
    Agree (s.apply operation) (p.apply operation) := by
  cases operation with
  | start renderer => exact ⟨rfl, tracks.start renderer⟩
  | stop => exact ⟨rfl, tracks.stop⟩
  | enqueue batch =>
    obtain ⟨answer, after⟩ := tracks.enqueue batch
    exact ⟨congrArg Answer.ofResult answer, after⟩
  | enqueueAll batches =>
    obtain ⟨answer, after⟩ := tracks.enqueueAll batches
    exact ⟨congrArg Answer.ofResult answer, after⟩
  | halt =>
    obtain ⟨answer, after⟩ := tracks.halt
    exact ⟨congrArg Answer.ofResult answer, after⟩
  | setCoefficients coefficients =>
    obtain ⟨answer, after⟩ := tracks.setCoefficients coefficients
    exact ⟨congrArg Answer.ofResult answer, after⟩
  | filter sample => exact ⟨rfl, tracks.filter sample⟩
  | tick sample =>
    obtain ⟨answer, after⟩ := tracks.tick sample
    exact ⟨congrArg Answer.drive answer, after⟩

theorem Tracks.run (tracks : s.Tracks p) (history : List Operation) :
    (s.run history).Tracks (p.run history) := by
  induction history generalizing s p with
  | nil => exact tracks
  | cons operation rest ih => exact ih (tracks.apply operation).2

/-- Every scheduler that can come about is the playlist of its handles. -/
theorem Reachable.tracks (reachable : s.Reachable) : s.Tracks s.playlist := by
  obtain ⟨renderer, history, rfl⟩ := reachable
  have tracks := (tracks_initial renderer).run history
  rwa [tracks.playlist_eq]

theorem Tracks.trace_eq (tracks : s.Tracks p) (history : List Operation) :
    s.trace history = p.trace history := by
  induction history generalizing s p with
  | nil => rfl
  | cons operation rest ih =>
    obtain ⟨answer, after⟩ := tracks.apply operation
    simp only [Scheduler.trace, Playlist.trace]
    rw [answer, after.glance_eq, ih after]

end Scheduler

end Animatronic
