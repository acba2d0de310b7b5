import Animatronic.Proofs.Playlist.Playback
import Animatronic.Proofs.Playlist.Timetable
import Mathlib.Data.List.Induction

/-!
# The emergency stop

`halt` gives up all that waits and makes the empty batch next, without a delay.  From then on the
playlist is `Armed`: no call can take the empty batch out of its place or put another in front of
it, so the first tick of a running scheduler makes it current, and it has nothing to play.

What plays afterwards is of a later date.  A batch cannot play from a slot that has been in use
ever since the stop: until that tick nothing has been rendered, and after it every slot in use has
been free at some time (`Braked.step`, `Renewed.step`).
-/

namespace Animatronic

namespace Playlist

variable {p : Playlist} {sample : Binary32} {target : UInt16}

/-! ## What can play -/

/-- While it does not run, a playlist has nothing to play.  Otherwise it stands somewhere in a
batch. -/
structure Placed (p : Playlist) : Prop where
  idle : p.running = false → p.active = false ∧ p.current = none
  stands : ∃ batch k, p.Stands batch k

theorem placed_of_idle (active : p.active = false) (idle : p.current = none) : p.Placed :=
  ⟨fun _ => ⟨active, idle⟩, .stop, 0, Or.inr ⟨idle, Batch.not_playsAt_of_empty rfl 0⟩⟩

/-- Whatever a tick plays, it stands in that batch afterwards; and it is the batch that becomes
current on this tick, or the one that was current before. -/
theorem Placed.exists_stands (placed : p.Placed) (running : p.running = true)
    (sample : Binary32) :
    ∃ batch k, (p.sense sample).prepare.Stands batch k ∧
      (batch.PlaysAt k → p.activating = some batch ∨ p.current = some batch) := by
  cases turn : (p.sense sample).activating with
  | some next =>
    refine ⟨next, 0, stands_prepare_zero turn, fun _ => Or.inl ?_⟩
    rwa [activating_sense] at turn
  | none =>
    obtain ⟨batch, k, stands⟩ := placed.stands
    refine ⟨batch, k, ?_, fun plays => Or.inr ?_⟩
    · exact (stands.sense sample).prepare ((p.running_sense sample).trans running) turn
    · rcases stands with cued | ⟨-, past⟩
      · exact cued.current
      · exact absurd plays past

theorem Placed.tick (placed : p.Placed) (sample : Binary32) : (p.tick sample).2.Placed := by
  cases running : p.running with
  | false =>
    obtain ⟨active, idle⟩ := placed.idle running
    obtain ⟨_, sensed⟩ := p.exists_sense_eq sample
    rw [tick_of_stopped running, sensed]
    exact placed_of_idle active idle
  | true =>
    obtain ⟨batch, k, stands, -⟩ := placed.exists_stands running sample
    refine ⟨fun stopped => ?_, batch, k + 1, ?_⟩
    · rw [p.running_tick, running] at stopped
      cases stopped
    · rw [tick_of_running running]
      exact (stands.finish (p.rendered_prepare_sense sample)).1

theorem Placed.apply (placed : p.Placed) (operation : Operation) :
    (p.apply operation).2.Placed := by
  by_cases call : operation.isCall = true
  · have called := p.called_apply call
    obtain ⟨batch, k, stands⟩ := placed.stands
    refine ⟨fun stopped => ?_, batch, k, stands.of_place_eq called.place⟩
    rcases called.running with running | ⟨running, active⟩
    · rw [stopped] at running
      cases running
    · obtain ⟨idle, unplayed⟩ := placed.idle (running.symm.trans stopped)
      exact ⟨active.trans idle, (congrArg Prod.fst called.place).trans unplayed⟩
  · cases operation with
    | stop => exact placed_of_idle rfl rfl
    | tick sample => exact placed.tick sample
    | _ => exact absurd rfl call

theorem Placed.run (placed : p.Placed) (history : List Operation) : (p.run history).Placed := by
  induction history generalizing p with
  | nil => exact placed
  | cons operation rest ih => exact ih (placed.apply operation)

/-- A target that is rendered is one of the batch that is current then. -/
theorem Placed.current_of_rendered (placed : p.Placed)
    (rendered : (p.tick sample).2.rendered = some target) :
    ∃ batch, (p.tick sample).2.current = some batch ∧ target ∈ batch.expansion := by
  cases running : p.running with
  | false =>
    obtain ⟨_, sensed⟩ := p.exists_sense_eq sample
    rw [tick_of_stopped running, sensed] at rendered
    cases rendered
  | true =>
    obtain ⟨batch, k, stands, -⟩ := placed.exists_stands running sample
    obtain ⟨-, played, rested⟩ := stands.finish (p.rendered_prepare_sense sample)
    rw [tick_of_running running] at rendered ⊢
    by_cases plays : batch.PlaysAt k
    · obtain ⟨shown, -, current⟩ := played plays
      exact ⟨batch, current, List.mem_of_getElem? (shown.symm.trans rendered)⟩
    · rw [(rested plays).1] at rendered
      cases rendered

/-- A batch is current only if it has been before, or has its turn. -/
theorem Placed.current_apply (placed : p.Placed) {operation : Operation} {batch : Batch}
    (current : (p.apply operation).2.current = some batch) :
    p.current = some batch ∨ batch ∈ p.turn operation := by
  by_cases call : operation.isCall = true
  · exact Or.inl ((congrArg Prod.fst (p.called_apply call).place).symm.trans current)
  · cases operation with
    | stop => cases current
    | tick sample =>
      cases running : p.running with
      | false =>
        obtain ⟨_, sensed⟩ := p.exists_sense_eq sample
        rw [Playlist.apply, tick_of_stopped running, sensed] at current
        exact Or.inl current
      | true =>
        obtain ⟨own, k, stands, known⟩ := placed.exists_stands running sample
        obtain ⟨-, played, rested⟩ := stands.finish (p.rendered_prepare_sense sample)
        rw [Playlist.apply, tick_of_running running] at current
        by_cases plays : own.PlaysAt k
        · obtain rfl : own = batch := Option.some.inj ((played plays).2.2.symm.trans current)
          exact (known plays).symm.imp_right Option.mem_toList.mpr
        · have freed := (rested plays).2.2.2
          rw [current] at freed
          cases freed
    | _ => exact absurd rfl call

/-! ## Between the stop and the tick -/

/-- The empty batch is next, and has no delay left. -/
structure Armed (p : Playlist) : Prop where
  next : p.next = some .stop
  delay : p.delay = 0

theorem Armed.apply (armed : p.Armed) {operation : Operation} (call : operation.isCall = true) :
    (p.apply operation).2.Armed := by
  have called := p.called_apply call
  by_cases halts : operation = .halt
  · obtain ⟨-, next, delay⟩ := called.halted halts
    exact ⟨next, delay⟩
  · obtain ⟨-, next, delay⟩ := called.waiting halts
    exact ⟨next.trans armed.next, delay.trans armed.delay⟩

theorem Armed.run (armed : p.Armed) {calls : List Operation}
    (only : ∀ operation ∈ calls, operation.isCall = true) : (p.run calls).Armed := by
  induction calls generalizing p with
  | nil => exact armed
  | cons operation rest ih =>
    exact ih (armed.apply (only operation (List.mem_cons_self ..)))
      fun other mem => only other (List.mem_cons_of_mem _ mem)

theorem Armed.sense (armed : p.Armed) (sample : Binary32) : (p.sense sample).Armed := by
  obtain ⟨_, sensed⟩ := p.exists_sense_eq sample
  rw [sensed]
  exact ⟨armed.next, armed.delay⟩

/-- Without `halt`, what is admitted joins the queue and nothing leaves it. -/
theorem queue_run_of_isCall {calls : List Operation}
    (only : ∀ operation ∈ calls, operation.isCall = true) (halts : .halt ∉ calls) :
    (p.run calls).queue = p.queue ++ p.admitted calls := by
  induction calls generalizing p with
  | nil => exact (List.append_nil p.queue).symm
  | cons operation rest ih =>
    simp only [List.mem_cons, not_or] at halts
    have called := p.called_apply (only operation (List.mem_cons_self ..))
    have later := ih (p := (p.apply operation).2)
      (fun other mem => only other (List.mem_cons_of_mem _ mem)) halts.2
    rw [(called.waiting (Ne.symm halts.1)).1, List.append_assoc] at later
    exact later

theorem waiting_finish_releaseEmpty (p : Playlist) :
    p.releaseEmpty.finish.2.next = p.next ∧ p.releaseEmpty.finish.2.queue = p.queue := by
  have finished : ∀ q : Playlist, q.finish.2.next = q.next ∧ q.finish.2.queue = q.queue := by
    intro q
    unfold finish
    split
    · obtain ⟨_, _, _, _, _, rendered⟩ := q.exists_render_eq
      rw [rendered]
      exact ⟨rfl, rfl⟩
    · exact ⟨rfl, rfl⟩
  obtain ⟨next, queue⟩ := finished p.releaseEmpty
  rw [next, queue, releaseEmpty]
  split <;> exact ⟨rfl, rfl⟩

/-- The tick after an emergency stop.  Only the queue is left. -/
theorem Armed.tick (armed : p.Armed) (running : p.running = true) (sample : Binary32) :
    ((p.tick sample).1 = 0 ∧ (p.tick sample).2.rendered = none ∧
        (p.tick sample).2.active = false) ∧
      (p.tick sample).2.current = none ∧ (p.tick sample).2.next = none ∧
      (p.tick sample).2.queue = p.queue := by
  obtain ⟨next, delay⟩ := armed.sense sample
  have loaded : (p.sense sample).loadNext = p.sense sample := by
    rw [loadNext, next]
  have due : (p.sense sample).isDue = true := by
    rw [isDue, next, delay]
    rfl
  have turn : (p.sense sample).activating = some .stop := by
    rw [activating, loaded, due, p.running_sense, running]
    exact next
  obtain ⟨-, -, rested⟩ := (stands_prepare_zero turn).finish (p.rendered_prepare_sense sample)
  obtain ⟨rendered, drive, active, current⟩ := rested (Batch.not_playsAt_of_empty rfl 0)
  have waiting := (p.sense sample).switch.waiting_finish_releaseEmpty
  obtain ⟨unset, kept⟩ := (p.sense sample).queue_switch
  have queue : (p.sense sample).queue = p.queue := by
    obtain ⟨_, sensed⟩ := p.exists_sense_eq sample
    rw [sensed]
  have switched : (p.sense sample).prepare = (p.sense sample).switch.releaseEmpty := by
    rw [prepare, loaded, activate, if_pos due]
  rw [tick_of_running running]
  refine ⟨⟨drive, rendered, active⟩, current, ?_, ?_⟩
  · rw [switched, waiting.1, unset]
  · rw [switched, waiting.2, kept, queue]

/-- Nothing is rendered on that tick, whether the playlist runs or not. -/
theorem Armed.tick_eq_zero (armed : p.Armed) (placed : p.Placed) (sample : Binary32) :
    (p.tick sample).1 = 0 ∧ (p.tick sample).2.rendered = none ∧
      (p.tick sample).2.active = false := by
  cases running : p.running with
  | false =>
    obtain ⟨_, sensed⟩ := p.exists_sense_eq sample
    rw [tick_of_stopped running, sensed]
    exact ⟨rfl, rfl, (placed.idle running).1⟩
  | true => exact (armed.tick running sample).1

end Playlist

namespace Scheduler

variable {s : Scheduler} {history : List Operation} {operation : Operation}

theorem Reachable.placed (reachable : s.Reachable) : s.playlist.Placed := by
  obtain ⟨renderer, history, rfl⟩ := reachable
  rw [((tracks_initial renderer).run history).playlist_eq]
  exact (Playlist.placed_of_idle rfl rfl).run history

/-! ## Handles -/

theorem Reachable.isUsed_eq_false (reachable : s.Reachable) {handle : Handle}
    (absent : handle ∉ s.handles) : s.pool.isUsed handle = false :=
  Bool.eq_false_iff.mpr fun used => absent ((reachable.tracks.held.mem_iff handle).mpr used)

/-- If only the queue is left of the playlist, only the queue is left of the scheduler. -/
theorem Accounted.eq_none (accounted : s.Accounted) (current : s.playlist.current = none)
    (next : s.playlist.next = none) : s.current = none ∧ s.next = none := by
  have playing := accounted.current_isSome
  have waiting := accounted.next_isSome
  rw [current] at playing
  rw [next] at waiting
  exact ⟨Option.isNone_iff_eq_none.mp (Option.isSome_eq_false_iff.mp playing.symm),
    Option.isNone_iff_eq_none.mp (Option.isSome_eq_false_iff.mp waiting.symm)⟩

theorem Accounted.queue_eq_nil (accounted : s.Accounted) (queue : s.playlist.queue = []) :
    s.queue = [] := by
  have length := accounted.length_queue
  rw [queue] at length
  exact List.eq_nil_of_length_eq_zero length.symm

theorem handles_eq_queue (places : s.current = none ∧ s.next = none) : s.handles = s.queue := by
  rw [handles, places.1, places.2]
  rfl

theorem queue_finish_releaseEmpty (s : Scheduler) : s.releaseEmpty.finish.2.queue = s.queue := by
  have finished : ∀ t : Scheduler, t.finish.2.queue = t.queue := by
    intro t
    unfold finish
    split
    · obtain ⟨_, _, _, _, _, rendered⟩ := t.exists_render_eq
      rw [rendered]
    · exact t.pending_releaseCurrent.2
  rw [finished, releaseEmpty]
  split
  · exact s.pending_releaseCurrent.2
  · rfl

theorem queue_activate (s : Scheduler) : s.activate.queue = s.queue := by
  unfold activate
  split
  · obtain ⟨_, _, _, _, _, switched⟩ := s.exists_switch_eq
    rw [switched]
    exact s.pending_releaseCurrent.2
  · split <;> rfl

/-- A tick takes at most the front of the queue. -/
theorem queue_tick (s : Scheduler) (sample : Binary32) : (s.tick sample).2.queue <:+ s.queue := by
  obtain ⟨_, sensed⟩ := s.exists_sense_eq sample
  have kept : (s.sense sample).queue = s.queue := by rw [sensed]
  rw [tick, ← kept]
  split
  · rw [prepare, queue_finish_releaseEmpty, queue_activate]
    unfold loadNext
    split
    · next handle rest _ queue =>
      rw [queue]
      exact List.suffix_cons handle rest
    · exact List.suffix_refl _
  · exact List.suffix_refl _

/-! ## Slots that have been free -/

/-- The slot of a handle is free at some time of a history. -/
def FreedWithin (s : Scheduler) (history : List Operation) (handle : Handle) : Prop :=
  ∃ front back, history = front ++ back ∧ (s.run front).pool.isUsed handle = false

/-- The empty batch is next, and what waits behind it is stored in slots that have been free. -/
structure Braked (s : Scheduler) (history : List Operation) : Prop where
  armed : (s.run history).playlist.Armed
  freed : ∀ handle ∈ (s.run history).queue, s.FreedWithin history handle

/-- Every slot in use has been free, and the batch that is current has had its turn. -/
structure Renewed (s : Scheduler) (history : List Operation) : Prop where
  freed : ∀ handle ∈ (s.run history).handles, s.FreedWithin history handle
  turned : ∀ batch, (s.run history).playlist.current = some batch → batch ∈ s.turns history

theorem run_append_singleton (s : Scheduler) (history : List Operation) (operation : Operation) :
    s.run (history ++ [operation]) = ((s.run history).apply operation).2 :=
  List.foldl_append

theorem turns_append_singleton (s : Scheduler) (history : List Operation) (operation : Operation) :
    s.turns (history ++ [operation]) = s.turns history ++ (s.run history).turn operation := by
  induction history generalizing s with
  | nil => exact List.append_nil _
  | cons first rest ih =>
    rw [List.cons_append, turns, ih, turns, List.append_assoc]
    rfl

/-- An operation puts handles in circulation that were free, and none that were not. -/
theorem Reachable.freedWithin_append (reachable : s.Reachable) {handle : Handle}
    (known : handle ∈ (s.run history).handles → s.FreedWithin history handle) :
    s.FreedWithin (history ++ [operation]) handle := by
  by_cases mem : handle ∈ (s.run history).handles
  · obtain ⟨front, back, rfl, free⟩ := known mem
    exact ⟨front, back ++ [operation], List.append_assoc .., free⟩
  · exact ⟨history, [operation], rfl, (reachable.run history).isUsed_eq_false mem⟩

/-- Slots do not get older. -/
theorem Renewed.step (renewed : s.Renewed history) (reachable : s.Reachable)
    (operation : Operation) : s.Renewed (history ++ [operation]) := by
  have tracks := (reachable.run history).tracks
  refine ⟨fun handle _ => reachable.freedWithin_append (renewed.freed handle), ?_⟩
  intro batch current
  rw [run_append_singleton, (tracks.apply operation).2.playlist_eq] at current
  rw [turns_append_singleton, tracks.turn_eq, List.mem_append]
  exact ((reachable.run history).placed.current_apply current).imp_left (renewed.turned batch)

/-- Only new handles join the queue: none moves into it from another place. -/
theorem Reachable.mem_queue_of_apply (reachable : s.Reachable) {handle : Handle}
    (queued : handle ∈ (s.apply operation).2.queue) (mem : handle ∈ s.handles) :
    handle ∈ s.queue := by
  have after := (reachable.tracks.apply operation).2
  have emptied : (s.playlist.apply operation).2.queue = [] → handle ∈ s.queue := by
    intro queue
    rw [after.queue_eq_nil (after.playlist_eq ▸ queue)] at queued
    cases queued
  by_cases call : operation.isCall = true
  · by_cases halts : operation = .halt
    · subst halts
      exact emptied rfl
    · -- The current and the next handle are where they were, and are not in the queue as well.
      have distinct := after.held.distinct
      have places := places_apply_of_isCall (s := s) call
      rw [handles, places.1, places.2 halts, ← List.append_assoc] at distinct
      rw [handles, ← List.append_assoc] at mem
      exact (List.mem_append.mp mem).resolve_left fun other =>
        List.disjoint_of_nodup_append distinct other queued
  · cases operation with
    | stop => exact emptied rfl
    | tick sample => exact (s.queue_tick sample).subset queued
    | _ => exact absurd rfl call

/-- Until a tick makes the empty batch current, it stays next.  When the tick comes, or everything
is stopped before, nothing is left but what waits behind it. -/
theorem Braked.step (braked : s.Braked history) (reachable : s.Reachable) (operation : Operation) :
    s.Braked (history ++ [operation]) ∨ s.Renewed (history ++ [operation]) := by
  have before := reachable.run history
  have after := (before.tracks.apply operation).2
  rw [← run_append_singleton] at after
  have freed : ∀ handle ∈ (s.run (history ++ [operation])).queue,
      s.FreedWithin (history ++ [operation]) handle := by
    intro handle queued
    rw [run_append_singleton] at queued
    exact reachable.freedWithin_append fun mem =>
      braked.freed handle (before.mem_queue_of_apply queued mem)
  have still : ((s.run history).playlist.apply operation).2.Armed →
      s.Braked (history ++ [operation]) :=
    fun armed => ⟨after.playlist_eq ▸ armed, freed⟩
  have renewed : ((s.run history).playlist.apply operation).2.current = none →
      ((s.run history).playlist.apply operation).2.next = none →
        s.Renewed (history ++ [operation]) := by
    intro current next
    rw [← after.playlist_eq] at current next
    refine ⟨?_, fun batch other => absurd (current.symm.trans other) nofun⟩
    rw [handles_eq_queue (after.eq_none current next)]
    exact freed
  by_cases call : operation.isCall = true
  · exact Or.inl (still (braked.armed.apply call))
  · cases operation with
    | stop => exact Or.inr (renewed rfl rfl)
    | tick sample =>
      cases running : (s.run history).playlist.running with
      | false =>
        refine Or.inl (still ?_)
        rw [Playlist.apply, Playlist.tick_of_stopped running]
        exact braked.armed.sense sample
      | true =>
        obtain ⟨-, current, next, -⟩ := braked.armed.tick running sample
        exact Or.inr (renewed current next)
    | _ => exact absurd rfl call

/-- After an emergency stop, either it still waits for its tick, or nothing is left from before. -/
theorem Reachable.braked_or_renewed (reachable : s.Reachable) (armed : s.playlist.Armed)
    (empty : s.queue = []) (history : List Operation) :
    s.Braked history ∨ s.Renewed history := by
  induction history using List.reverseRecOn with
  | nil =>
    refine Or.inl ⟨armed, fun handle queued => ?_⟩
    rw [Scheduler.run, List.foldl_nil, empty] at queued
    cases queued
  | append_singleton history operation ih =>
    rcases ih with braked | renewed
    · exact braked.step reachable operation
    · exact Or.inr (renewed.step reachable operation)

/-- As long as there are only calls, the queue is what has been accepted since the last `halt`. -/
theorem Reachable.queue_eq_admitted (reachable : s.Reachable) (earlier : List Operation)
    {later : List Operation} (only : ∀ operation ∈ later, operation.isCall = true)
    (halts : .halt ∉ later) :
    (s.run (earlier ++ .halt :: later)).playlist.queue =
      (s.run (earlier ++ [.halt])).admitted later := by
  have tracks := (reachable.run earlier).tracks.halt.2
  have split : s.run (earlier ++ .halt :: later) = (s.run earlier).halt.2.run later :=
    List.foldl_append
  rw [split, run_append_singleton, (tracks.run later).playlist_eq,
    Playlist.queue_run_of_isCall only halts]
  exact (tracks.admitted_eq later).symm

/-- What is rendered after an emergency stop is of a batch that has had its turn since. -/
theorem Reachable.renewed_of_rendered (reachable : s.Reachable) (armed : s.playlist.Armed)
    (empty : s.queue = []) {sample : Binary32} {target : UInt16}
    (rendered : (s.run (history ++ [.tick sample])).rendered = some target) :
    s.Renewed (history ++ [.tick sample]) := by
  have called := reachable.run history
  rcases reachable.braked_or_renewed armed empty history with braked | renewed
  · obtain ⟨-, silent, -⟩ := braked.armed.tick_eq_zero called.placed sample
    rw [← (called.tracks.tick sample).2.playlist_eq] at silent
    rw [run_append_singleton] at rendered
    exact absurd (silent.symm.trans rendered) nofun
  · exact renewed.step reachable _

/-- What an emergency stop brings about. -/
structure HaltsMotion (s : Scheduler) : Prop where
  accepted : s.halt.1 = .ok ()
  emptied : s.halt.2.queued = 0
  /-- Whatever is called in between, the next tick renders nothing. -/
  tick : ∀ calls, (∀ operation ∈ calls, operation.isCall = true) → ∀ sample,
    let after := (s.halt.2.run calls).tick sample
    after.1 = 0 ∧ after.2.rendered = none ∧ after.2.active = false
  /-- If the scheduler is running then, no slot is in use after that tick but those of the queue,
  and the queue holds what has been accepted since the last `halt`. -/
  held : ∀ calls, (∀ operation ∈ calls, operation.isCall = true) → ∀ sample,
    (s.halt.2.run calls).running = true →
      let after := ((s.halt.2.run calls).tick sample).2
      after.current = none ∧ after.next = none ∧ after.batchesInUse = after.queued ∧
        ∀ earlier later, .halt :: calls = earlier ++ .halt :: later → .halt ∉ later →
          after.playlist.queue = (s.run (earlier ++ [.halt])).admitted later
  /-- A target that is rendered on any later tick is one of a batch that was accepted after the
  stop, and that plays from a slot which has been free since then. -/
  fresh : ∀ continuation sample target,
    let history := continuation ++ [.tick sample]
    let after := s.halt.2.run history
    after.rendered = some target →
      ∃ handle batch, after.current = some handle ∧ after.currentBatch = some batch ∧
        target ∈ batch.expansion ∧ batch ∈ s.halt.2.admitted history ∧
          s.halt.2.FreedWithin history handle

/-- Whatever a scheduler is doing, an emergency stop ends it with the next tick, and for good. -/
theorem haltsMotion (reachable : s.Reachable) : s.HaltsMotion := by
  have tracks := reachable.tracks.halt.2
  have halted : s.halt.2.Reachable := reachable.run [.halt]
  have armed : s.halt.2.playlist.Armed := by
    rw [tracks.playlist_eq]
    exact ⟨rfl, rfl⟩
  have empty : s.halt.2.queue = [] := tracks.queue_eq_nil (tracks.playlist_eq ▸ rfl)
  have still : ∀ calls, (∀ operation ∈ calls, operation.isCall = true) →
      (s.halt.2.run calls).playlist.Armed := by
    intro calls only
    rw [(halted.tracks.run calls).playlist_eq]
    exact armed.run only
  refine
    { accepted := reachable.tracks.halt.1
      emptied := congrArg List.length empty
      tick := fun calls only sample => ?_
      held := fun calls only sample running => ?_
      fresh := fun continuation sample target rendered => ?_ }
  · have called := halted.run calls
    obtain ⟨drive, after⟩ := called.tracks.tick sample
    obtain ⟨zero, silent, idle⟩ := (still calls only).tick_eq_zero called.placed sample
    rw [← after.playlist_eq] at silent idle
    exact ⟨drive.trans zero, silent, idle⟩
  · have after := ((halted.run calls).tracks.tick sample).2
    obtain ⟨-, current, next, queue⟩ := (still calls only).tick running sample
    rw [← after.playlist_eq] at current next queue
    have places := after.eq_none current next
    refine ⟨places.1, places.2, ?_, fun earlier later cut halts => ?_⟩
    · rw [after.batchesInUse_eq, handles_eq_queue places]
      rfl
    · have called : ∀ operation ∈ later, operation.isCall = true := by
        intro operation mem
        have among : operation ∈ .halt :: calls :=
          cut ▸ List.mem_append_right _ (List.mem_cons_of_mem _ mem)
        rcases List.mem_cons.mp among with rfl | mem
        · rfl
        · exact only operation mem
      rw [queue, ← reachable.queue_eq_admitted earlier called halts, ← cut]
      rfl
  · have before := halted.run continuation
    have renewed := halted.renewed_of_rendered armed empty rendered
    have after := (before.tracks.tick sample).2
    have onward : s.halt.2.run (continuation ++ [.tick sample]) =
        ((s.halt.2.run continuation).tick sample).2 :=
      run_append_singleton ..
    rw [← onward] at after
    obtain ⟨batch, current, mem⟩ := before.placed.current_of_rendered
      ((congrArg Playlist.rendered after.playlist_eq).symm.trans rendered)
    rw [← after.playlist_eq] at current
    obtain ⟨handle, playing, -⟩ := Option.bind_eq_some_iff.mp current
    have turned := (Playlist.turns_append_pending s.halt.2.playlist
      (continuation ++ [.tick sample])).1.subset
        (List.mem_append_left _ (halted.tracks.turns_eq _ ▸ renewed.turned batch current))
    refine ⟨handle, batch, playing, current, mem, ?_, renewed.freed handle ?_⟩
    · rw [halted.tracks.admitted_eq]
      rcases List.mem_append.mp turned with waiting | admitted
      · rw [tracks.playlist_eq] at waiting
        obtain rfl : batch = .stop := List.mem_singleton.mp waiting
        cases mem
      · exact admitted
    · rw [handles, playing]
      exact List.mem_cons_self ..

/-- With a batch playing, one in its delay and eight behind them, a batch that is accepted after
the stop is all that is left on the tick after it; and it is the first to be rendered again. -/
theorem haltsMotion_when_all_slots_are_used :
    ∃ (s : Scheduler) (late : Batch),
      s.batchesInUse = poolCapacity ∧ s.rendered = some 7 ∧ s.halt.1 = .ok () ∧
        ((s.halt.2.run [.enqueue late]).tick ⟨0⟩).1 = 0 ∧
        ((s.halt.2.run [.enqueue late]).tick ⟨0⟩).2.playlist.queue = [late] ∧
        (s.halt.2.run ([.enqueue late, .tick ⟨0⟩] ++ [.tick ⟨0⟩])).currentBatch = some late := by
  let endless : Batch := ⟨5, Batch.forever, [⟨3, 7⟩], by decide⟩
  let late : Batch := ⟨0, 1, [⟨1, 9⟩], by decide⟩
  let eight := Operation.enqueueAll (List.replicate 8 endless)
  let seven : List Operation := List.replicate 7 (.tick ⟨0⟩)
  let s := (initial .vibration).run
    (.start .vibration :: eight :: seven ++ [.enqueue endless, .enqueue endless])
  have halts : s.HaltsMotion := haltsMotion ⟨_, _, rfl⟩
  have quiet := halts.tick [.enqueue late] (by decide) ⟨0⟩
  have held := halts.held [.enqueue late] (by decide) ⟨0⟩ (by decide)
  have queue := held.2.2.2 [] [.enqueue late] rfl (by decide)
  obtain ⟨_, batch, -, current, -, admitted, -⟩ :=
    halts.fresh [.enqueue late, .tick ⟨0⟩] ⟨0⟩ 9 (by decide)
  have only : s.halt.2.admitted ([.enqueue late, .tick ⟨0⟩] ++ [.tick ⟨0⟩]) = [late] := by decide
  rw [only] at admitted
  obtain rfl : batch = late := List.mem_singleton.mp admitted
  exact ⟨s, late, by decide, by decide, halts.accepted, quiet.1, queue.trans (by decide), current⟩

end Scheduler

end Animatronic
